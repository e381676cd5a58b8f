import PyStreamAI.HotReloadHistory

/-!
# The active flag

`active` is set when a version is loaded and cleared when another activation follows, the current
version's own included; nothing sets it again. Versions that were replaced are therefore always
marked inactive (`Marked`), and the served ones are active exactly as long as every activation
switches to a version that is not current and was never replaced (`flagsRight_iff`).
-/

open Py Machine

namespace PyStreamAI

namespace HotReloadManager

variable {V : Type*} {evs : List (Event V)} {s : HotReloadManager V}

/-- The version `v` of `m` was replaced by a different one, and not loaded since. -/
def Replaced (m v : String) : List (Event V) → Prop
  | [] => False
  | .loaded m' v' _ :: evs => ¬ (m' = m ∧ v' = v) ∧ Replaced m v evs
  | .activated m' v' :: evs =>
    (m' = m ∧ v' ≠ v ∧ currentVersion m evs = some v) ∨ Replaced m v evs
  | .got _ _ :: evs => Replaced m v evs

/-- The served versions are active, and the replaced ones that are not current again are not. -/
structure FlagsRight (evs : List (Event V)) (s : HotReloadManager V) : Prop where
  serving : ∀ m mv, s.serving m = some mv → mv.active = true
  replaced : ∀ m v, Replaced m v evs → currentVersion m evs ≠ some v →
    ∃ mv, s.models.get? (key m v) = some mv ∧ mv.active = false

/-! ## Replaced versions -/

/-- Every replaced version is marked inactive. -/
def Marked (evs : List (Event V)) (s : HotReloadManager V) : Prop :=
  ∀ m v, Replaced m v evs →
    ':' ∉ m.toList ∧ ∃ mv, s.models.get? (key m v) = some mv ∧ mv.active = false

theorem Marked.loadModel (h : Marked evs s) {m v : String} (hm : ':' ∉ m.toList) (model : V)
    (now : Datetime) : Marked (.loaded m v model :: evs) (s.loadModel m v (.ok model) now).2 := by
  rintro m' v' ⟨hne, hrep⟩
  obtain ⟨hm', mv, hmv, hactive⟩ := h m' v' hrep
  refine ⟨hm', mv, ?_, hactive⟩
  rw [get?_loadModel, if_neg, hmv]
  rw [key_inj hm' hm]
  exact fun e => hne ⟨e.1.symm, e.2.symm⟩

theorem Marked.activateVersion (h : Marked evs s) (href : Refines evs s) {m v : String}
    (hl : s.Loaded m v) : Marked (.activated m v :: evs) (s.activateVersion m v).2 := by
  rintro m' v' (⟨rfl, -, hcur⟩ | hrep)
  · obtain ⟨hm, hv, hload⟩ := href.loaded m v' hcur
    obtain ⟨mv, hmv⟩ := loaded_iff.mp ((href.loaded_iff hm).mpr hload)
    refine ⟨hm, { mv with active := false }, ?_, rfl⟩
    rw [get?_activateVersion hl, if_pos ⟨v', (href.current m).trans hcur, hv, rfl⟩, hmv]
    rfl
  · obtain ⟨hm', mv, hmv, hactive⟩ := h m' v' hrep
    rw [get?_activateVersion hl, hmv]
    split_ifs
    · exact ⟨hm', _, rfl, rfl⟩
    · exact ⟨hm', mv, rfl, hactive⟩

theorem Marked.getCurrentModel (h : Marked evs s) (m : String) (model : Option V) :
    Marked (.got m model :: evs) (s.getCurrentModel m).2 := by
  intro m' v' hrep
  obtain ⟨hm', mv, hmv, hactive⟩ := h m' v' hrep
  rw [get?_getCurrentModel, hmv]
  split_ifs
  · exact ⟨hm', _, rfl, hactive⟩
  · exact ⟨hm', mv, rfl, hactive⟩

/-! ## Served versions -/

/-- The served versions are active. -/
def ServedActive (s : HotReloadManager V) : Prop := ∀ m mv, s.serving m = some mv → mv.active = true

theorem ServedActive.loadModel (h : ServedActive s) (href : Refines evs s) {m v : String}
    (hm : ':' ∉ m.toList) (hv : v ≠ "") (model : V) (now : Datetime) :
    ServedActive (s.loadModel m v (.ok model) now).2 := by
  intro m' mv hserving
  rw [(href.loadModel hm hv model now).serving, Option.bind_eq_some_iff] at hserving
  obtain ⟨w, hcur, hmv⟩ := hserving
  rw [get?_loadModel] at hmv
  split_ifs at hmv with hkey
  · rw [← Option.some.inj hmv]
    rfl
  · -- the version was current before, or it is the one just loaded
    refine h m' mv ?_
    rw [currentVersion_loaded] at hcur
    rw [href.serving, Option.bind_eq_some_iff]
    split_ifs at hcur with heq
    · subst heq
      cases hold : currentVersion m evs with
      | none =>
        rw [hold] at hcur
        exact absurd (congrArg (key m) (Option.some.inj hcur).symm) hkey
      | some w' =>
        rw [hold] at hcur
        exact ⟨w, hcur, hmv⟩
    · exact ⟨w, hcur, hmv⟩

theorem ServedActive.getCurrentModel (h : ServedActive s) (m : String) :
    ServedActive (s.getCurrentModel m).2 := by
  intro m' mv hserving
  have hactive : ((s.getCurrentModel m).2.serving m').map ModelVersion.active =
      (s.serving m').map ModelVersion.active :=
    map_serving (by rw [currentVersions_getCurrentModel])
      fun k => map_get?_getCurrentModel s m k fun _ => rfl
  rw [hserving, Option.map_some, eq_comm, Option.map_eq_some_iff] at hactive
  obtain ⟨mv', hmv', heq⟩ := hactive
  rw [← heq]
  exact h m' mv' hmv'

/-- An activation that switches to a version that is not current and is marked active. -/
def CleanSwitch (s : HotReloadManager V) (op : Op V) : Prop :=
  ∀ m v mv, op = .activateVersion m v → s.models.get? (key m v) = some mv →
    s.currentVersions.get? m ≠ some v ∧ mv.active = true

/-- What an activation does to the version it activates. -/
theorem ServedActive.activateVersion_iff (h : ServedActive s) (href : Refines evs s)
    {m v : String} (hm : ':' ∉ m.toList) (hv : v ≠ "") {mv : ModelVersion V}
    (hmv : s.models.get? (key m v) = some mv) :
    ServedActive (s.activateVersion m v).2 ↔
      s.currentVersions.get? m ≠ some v ∧ mv.active = true := by
  have hl : s.Loaded m v := loaded_iff.mpr ⟨mv, hmv⟩
  have href' := href.activateVersion hm hv hl
  have hserving : ∀ m', (s.activateVersion m v).2.serving m' =
      (currentVersion m' (.activated m v :: evs)).bind fun w =>
        (s.activateVersion m v).2.models.get? (key m' w) := href'.serving
  constructor
  · intro hactive
    have hnew := hserving m
    rw [currentVersion_activated, if_pos rfl, Option.bind_some, get?_activateVersion hl, hmv] at hnew
    split_ifs at hnew with hold
    · have hfalse := hactive m _ hnew
      cases hfalse
    · refine ⟨fun hcur => hold ⟨v, hcur, hv, rfl⟩, hactive m mv hnew⟩
  · rintro ⟨hcur, hactive⟩ m' mv' hmv'
    rw [hserving, Option.bind_eq_some_iff] at hmv'
    obtain ⟨w, hw, hmv'⟩ := hmv'
    obtain ⟨hm', hwne, -⟩ := href'.loaded m' w hw
    have hold : ¬ ∃ old, s.currentVersions.get? m = some old ∧ old ≠ "" ∧
        key m' w = key m old := by
      rintro ⟨old, hold, -, hkey⟩
      obtain ⟨rfl, rfl⟩ := (key_inj hm' hm).mp hkey
      rw [currentVersion_activated, if_pos rfl] at hw
      exact hcur (hold.trans hw.symm)
    rw [get?_activateVersion hl, if_neg hold] at hmv'
    rw [currentVersion_activated] at hw
    split_ifs at hw with heq
    · subst heq
      rw [← Option.some.inj hw, hmv] at hmv'
      rw [← Option.some.inj hmv']
      exact hactive
    · refine h m' mv' ?_
      rw [href.serving, hw]
      exact hmv'

theorem ServedActive.step_iff (h : ServedActive s) (href : Refines evs s) {op : Op V}
    (hop : op.Plain) : CleanSwitch s op ↔ ServedActive (s.step op) := by
  cases op with
  | loadModel m v loader now =>
    refine ⟨fun _ => ?_, fun _ _ _ _ e => by cases e⟩
    cases loader with
    | error e => exact h
    | ok model => exact h.loadModel href hop.1 hop.2 model now
  | activateVersion m v =>
    cases hmv : s.models.get? (key m v) with
    | none =>
      have hl : ¬ s.Loaded m v := fun hl => by
        obtain ⟨mv, hmv'⟩ := loaded_iff.mp hl
        rw [hmv] at hmv'
        cases hmv'
      refine ⟨fun _ => ?_, fun _ m' v' mv heq hmv' => ?_⟩
      · show ServedActive (s.activateVersion m v).2
        rw [activateVersion_of_not_loaded hl]
        exact h
      · cases heq
        rw [hmv] at hmv'
        cases hmv'
    | some mv =>
      show _ ↔ ServedActive (s.activateVersion m v).2
      rw [h.activateVersion_iff href hop.1 hop.2 hmv]
      refine ⟨fun hclean => hclean m v mv rfl hmv, fun hc m' v' mv' heq hmv' => ?_⟩
      cases heq
      rw [hmv] at hmv'
      rw [← Option.some.inj hmv']
      exact hc
  | getCurrentModel m =>
    exact ⟨fun _ => h.getCurrentModel m, fun _ _ _ _ e => by cases e⟩
  | getModelStatus m => exact ⟨fun _ => h, fun _ _ _ _ e => by cases e⟩

/-! ## Runs -/

theorem Marked.step (h : Marked evs s) (href : Refines evs s) {op : Op V} (hop : op.Plain) :
    Marked ((s.emit op).reverse ++ evs) (s.step op) := by
  cases op with
  | loadModel m v loader now =>
    cases loader with
    | error e => exact h
    | ok model => exact h.loadModel hop.1 model now
  | activateVersion m v =>
    by_cases hl : s.Loaded m v
    · rw [emit_activateVersion hl]
      exact h.activateVersion href hl
    · rw [emit_activateVersion_of_not hl]
      show Marked evs (s.activateVersion m v).2
      rw [activateVersion_of_not_loaded hl]
      exact h
  | getCurrentModel m => exact h.getCurrentModel m _
  | getModelStatus m => exact h

theorem marked_run {tr : List (Op V)} (hplain : ∀ op ∈ tr, op.Plain) :
    Marked (past tr) (run step init tr) := by
  have hboth : Refines (past tr) (run step init tr) ∧ Marked (past tr) (run step init tr) := by
    refine Along.history (P := fun tr s => Refines (past tr) s ∧ Marked (past tr) s)
      ⟨refines_init, fun _ _ h => h.elim⟩ (fun tr op h hop => ?_) (along_of_forall hplain)
    rw [past_snoc]
    exact ⟨h.1.step hop, h.2.step h.1 hop⟩
  exact hboth.2

theorem servedActive_init : ServedActive (init : HotReloadManager V) := fun _ _ h => by cases h

/-- **Active flags.** With plain names, the flags are right throughout a history exactly when each
of its successful activations switches to a version that is not current and is marked active. -/
theorem flagsRight_iff {tr : List (Op V)} (hplain : ∀ op ∈ tr, op.Plain) :
    (∀ pre, pre <+: tr → FlagsRight (past pre) (run step init pre)) ↔
      Along step CleanSwitch init tr := by
  have hplain' : ∀ pre, pre <+: tr → ∀ op ∈ pre, op.Plain :=
    fun pre hpre op hop => hplain op (hpre.subset hop)
  rw [← forall_prefix_iff_along_of (I := fun pre => ServedActive (run step init pre))
    servedActive_init tr ?_]
  · constructor
    · exact fun h pre hpre => (h pre hpre).serving
    · refine fun h pre hpre => ⟨h pre hpre, fun m v hrep _ => ?_⟩
      exact (marked_run (hplain' pre hpre) m v hrep).2
  · intro pre op hpre _ h
    have hops := hplain' _ hpre
    rw [run_snoc]
    exact h.step_iff (refines_run fun op' h' => hops op' (List.mem_append_left _ h'))
      (hops op (List.mem_append_right _ List.mem_cons_self))

/-- Two versions, and a switch to the second. -/
def rolledOut : List (Op ℕ) :=
  let now : Datetime := ⟨2024, 1, 1, 0, 0, 0, 0⟩
  [.loadModel "m" "v1" (.ok 1) now, .loadModel "m" "v2" (.ok 2) now, .activateVersion "m" "v2"]

theorem plain_rolledOut : ∀ op ∈ rolledOut, op.Plain := by
  have hid : ':' ∉ "m".toList := by decide
  intro op hop
  unfold rolledOut at hop
  simp only [List.mem_cons, List.not_mem_nil, or_false] at hop
  rcases hop with rfl | rfl | rfl <;> exact ⟨hid, by decide⟩

theorem rolledOut_flagsRight : FlagsRight (past rolledOut) (run step init rolledOut) := by
  refine (flagsRight_iff plain_rolledOut).mpr ⟨?_, ?_, ?_, trivial⟩ rolledOut List.prefix_rfl
  · intro m v mv heq _
    cases heq
  · intro m v mv heq _
    cases heq
  · intro m v mv heq hmv
    cases heq
    refine ⟨by decide +kernel, ?_⟩
    have hactive : ((run step init (rolledOut.take 2)).models.get? (key "m" "v2")).map
        ModelVersion.active = some true := by decide +kernel
    replace hmv : (run step init (rolledOut.take 2)).models.get? (key "m" "v2") = some mv := hmv
    rw [hmv] at hactive
    exact Option.some.inj hactive

/-- Switching back to the first version leaves it served and marked inactive. -/
theorem rolledBack_inactive :
    let tr := rolledOut ++ [.activateVersion "m" "v1"]
    let s := run step init tr
    (∀ op ∈ tr, op.Plain) ∧ (s.getCurrentModel "m").1 = some 1 ∧
      (s.serving "m").map ModelVersion.active = some false ∧ ¬ FlagsRight (past tr) s := by
  intro tr s
  have hactive : (s.serving "m").map ModelVersion.active = some false := by decide +kernel
  refine ⟨fun op hop => ?_, by decide +kernel, hactive, fun h => ?_⟩
  · rcases List.mem_append.mp hop with hop | hop
    · exact plain_rolledOut op hop
    · rw [List.mem_singleton.mp hop]
      exact ⟨by decide, by decide⟩
  · obtain ⟨mv, hmv, hfalse⟩ := Option.map_eq_some_iff.mp hactive
    rw [h.serving "m" mv hmv] at hfalse
    cases hfalse

end HotReloadManager

end PyStreamAI
