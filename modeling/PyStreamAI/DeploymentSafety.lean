import PyStreamAI.Deployment
import PyStreamAI.Machine

/-!
# What every request is routed to

`Registered` relates a manager to the records deployed so far and holds after every history
(`registered_run`). `Intact` says that a canary in the slot still has its canary version. On a
registered manager it is equivalent to the manager's contract `Serves` (`serves_iff_intact`), and
the one call that breaks it is `rollback_deployment` with a canary in the slot
(`step_intact_iff`): the rolled-back `CanaryDeployment` stays in the slot without a version.
-/

open Py Machine

namespace PyStreamAI

namespace DeploymentManager

/-- The manager's contract, given the records deployed so far: every request gets one of them, and
promotion, rollback and status complete. -/
structure Serves (records : List DeploymentVersion) (m : DeploymentManager) : Prop where
  route : ∀ draw, ∃ v ∈ records, (m.routeRequest draw).1 = .ok (some v)
  promote : Returns m.promoteCanary.1
  rollback : Returns m.rollbackDeployment.1
  status : Returns m.getDeploymentStatus

/-- The manager after requests with the given draws. -/
def afterRequests (m : DeploymentManager) (draws : List Draw) : DeploymentManager :=
  run step m (draws.map .routeRequest)

/-- The manager keeps its contract throughout the history, once something is deployed, and after
the rollback of a canary without an A/B test every request goes to the version that was current
before the canary. -/
structure KeepsContract (tr : List Op) : Prop where
  serves : ∀ pre, pre <+: tr → deployed pre ≠ [] → Serves (deployed pre) (run step init pre)
  restores : ∀ pre c, pre ++ [.rollbackDeployment] <+: tr → (run step init pre).canary = some c →
    (run step init pre).abTest = none → ∀ draws draw,
      (((run step init (pre ++ [.rollbackDeployment])).afterRequests draws).routeRequest draw).1 =
        .ok (some c.currentVersion)

/-! ## The registry -/

/-- The manager holds deployed records only, and has an active one as soon as there is one. -/
structure Registered (tr : List Op) (m : DeploymentManager) : Prop where
  recorded : ∀ k v, m.deployments.get? k = some v → v ∈ deployed tr
  present : ∀ v ∈ deployed tr, v.version ∈ m.deployments.keys
  active : deployed tr ≠ [] → ∃ k ∈ m.deployments.keys, m.activeDeployment = some k
  idle : deployed tr = [] → m.activeDeployment = none ∧ m.canary = none
  current : ∀ c, m.canary = some c → c.currentVersion ∈ deployed tr
  canary : ∀ c v, m.canary = some c → c.canaryVersion = some v → v ∈ deployed tr
  variants : ∀ t, m.abTest = some t → t.variantA ∈ deployed tr ∧ t.variantB ∈ deployed tr

@[simp] theorem deployed_nil : deployed [] = [] := rfl

theorem deployed_snoc (tr : List Op) (op : Op) :
    deployed (tr ++ [op]) = deployed tr ++ op.deployed?.toList := by
  unfold deployed
  rw [List.filterMap_append]
  cases h : op.deployed? <;> simp [List.filterMap, h]

/-- A call that deploys nothing keeps the registry, if it changes neither the deployments nor
puts anything undeployed into the other slots. -/
theorem Registered.snoc {tr : List Op} {m m' : DeploymentManager} {op : Op} (h : Registered tr m)
    (hop : op.deployed? = none) (hd : m'.deployments = m.deployments)
    (ha : m'.activeDeployment = m.activeDeployment ∨
      ∃ c v, m.canary = some c ∧ c.canaryVersion = some v ∧ m'.activeDeployment = some v.version)
    (hi : m.activeDeployment = none → m.canary = none → m'.canary = none)
    (hc : ∀ c, m'.canary = some c → c.currentVersion ∈ deployed tr ∧
      ∀ v, c.canaryVersion = some v → v ∈ deployed tr)
    (ht : ∀ t, m'.abTest = some t → t.variantA ∈ deployed tr ∧ t.variantB ∈ deployed tr) :
    Registered (tr ++ [op]) m' := by
  have hdep : deployed (tr ++ [op]) = deployed tr := by
    rw [deployed_snoc, hop]; exact List.append_nil _
  constructor
  · rw [hdep, hd]; exact h.recorded
  · rw [hdep, hd]; exact h.present
  · rw [hdep, hd]
    intro hne
    rcases ha with ha | ⟨c, v, hcan, hv, ha⟩
    · rw [ha]; exact h.active hne
    · exact ⟨v.version, h.present v (h.canary c v hcan hv), ha⟩
  · rw [hdep]
    intro he
    obtain ⟨hactive, hcanary⟩ := h.idle he
    refine ⟨?_, hi hactive hcanary⟩
    rcases ha with ha | ⟨c, v, hcan, _, _⟩
    · rw [ha, hactive]
    · rw [hcanary] at hcan; cases hcan
  · rw [hdep]; exact fun c hcan => (hc c hcan).1
  · rw [hdep]; exact fun c v hcan hv => (hc c hcan).2 v hv
  · rw [hdep]; exact ht

theorem registered_init : Registered [] init := by
  constructor <;> simp [init]

theorem registered_deployModel {tr : List Op} {m : DeploymentManager} (h : Registered tr m)
    (modelId version uri : String) (now : Datetime) :
    Registered (tr ++ [.deployModel modelId version uri now])
      (m.deployModel modelId version uri now).2 := by
  have hdep : deployed (tr ++ [.deployModel modelId version uri now]) =
      deployed tr ++ [deployedRecord modelId version uri now] := deployed_snoc _ _
  have hold : ∀ v ∈ deployed tr, v ∈ deployed (tr ++ [.deployModel modelId version uri now]) :=
    fun v hv => hdep ▸ List.mem_append_left _ hv
  have hnew : deployedRecord modelId version uri now ∈
      deployed (tr ++ [.deployModel modelId version uri now]) :=
    hdep ▸ List.mem_append_right _ (List.mem_singleton.mpr rfl)
  rw [deployModel_snd]
  constructor
  · intro k v hv
    dsimp only at hv
    rw [Dict.get?_set] at hv
    split_ifs at hv with hk
    · rw [← Option.some.inj hv]; exact hnew
    · exact hold v (h.recorded k v hv)
  · intro v hv
    rw [Dict.mem_keys_set]
    rw [hdep, List.mem_append, List.mem_singleton] at hv
    rcases hv with hv | rfl
    · exact Or.inr (h.present v hv)
    · exact Or.inl rfl
  · intro _
    by_cases hnone : m.activeDeployment = none
    · exact ⟨version, Dict.mem_keys_set.mpr (Or.inl rfl), by rw [hnone]; rfl⟩
    · have hne : deployed tr ≠ [] := fun he => hnone (h.idle he).1
      obtain ⟨k, hk, hactive⟩ := h.active hne
      exact ⟨k, Dict.mem_keys_set.mpr (Or.inr hk), by rw [hactive]; rfl⟩
  · intro he
    rw [hdep] at he
    exact absurd he (List.append_ne_nil_of_right_ne_nil _ (List.cons_ne_nil _ _))
  · exact fun c hc => hold _ (h.current c hc)
  · exact fun c v hc hv => hold _ (h.canary c v hc hv)
  · exact fun t ht => ⟨hold _ (h.variants t ht).1, hold _ (h.variants t ht).2⟩

theorem Registered.unchanged {tr : List Op} {m : DeploymentManager} {op : Op}
    (h : Registered tr m) (hop : op.deployed? = none) : Registered (tr ++ [op]) m :=
  h.snoc hop rfl (Or.inl rfl) (fun _ hc => hc)
    (fun c hc => ⟨h.current c hc, fun v => h.canary c v hc⟩) h.variants

theorem registered_startCanary {tr : List Op} {m : DeploymentManager} (h : Registered tr m)
    (canaryVersion : String) (percent : ℚ) :
    Registered (tr ++ [.startCanaryDeployment canaryVersion percent])
      (m.startCanaryDeployment canaryVersion percent).2 := by
  unfold startCanaryDeployment
  split_ifs with hactive
  · exact h.unchanged rfl
  cases hcur : m.activeRecord with
  | error e => exact h.unchanged rfl
  | ok current =>
    cases hcan : m.deployments.get? canaryVersion with
    | none => exact h.unchanged rfl
    | some canary =>
      obtain ⟨k, -, hk⟩ := activeRecord_eq_ok.mp hcur
      refine h.snoc rfl rfl (Or.inl rfl) (fun hn _ => absurd hn hactive) ?_ h.variants
      intro c hc
      obtain rfl := Option.some.inj hc
      refine ⟨h.recorded k current hk, fun v hv => ?_⟩
      obtain rfl := Option.some.inj hv
      exact h.recorded _ _ hcan

theorem registered_promoteCanary {tr : List Op} {m : DeploymentManager} (h : Registered tr m) :
    Registered (tr ++ [.promoteCanary]) m.promoteCanary.2 := by
  cases hcan : m.canary with
  | none =>
    rw [promoteCanary_of_none hcan]
    exact h.unchanged rfl
  | some c =>
    cases hv : c.canaryVersion with
    | none =>
      rw [promoteCanary_of_gone hcan hv]
      exact h.unchanged rfl
    | some v =>
      rw [promoteCanary_of_some hcan hv]
      exact h.snoc rfl rfl (Or.inr ⟨c, v, hcan, hv, rfl⟩) (fun _ _ => rfl) (fun _ hc => by cases hc)
        h.variants

theorem registered_rollback {tr : List Op} {m : DeploymentManager} (h : Registered tr m) :
    Registered (tr ++ [.rollbackDeployment]) m.rollbackDeployment.2 := by
  cases hcan : m.canary with
  | none =>
    rw [rollbackDeployment_of_none hcan]
    exact h.unchanged rfl
  | some c =>
    cases hv : c.canaryVersion with
    | none =>
      rw [rollbackDeployment_of_gone hcan hv]
      exact h.unchanged rfl
    | some v =>
      rw [rollbackDeployment_of_some hcan hv]
      refine h.snoc rfl rfl (Or.inl rfl) (fun _ hn => ?_) ?_ h.variants
      · rw [hn] at hcan; cases hcan
      · intro c' hc'
        obtain rfl := Option.some.inj hc'
        exact ⟨h.current c hcan, fun v hv' => by cases hv'⟩

theorem registered_startAbTest {tr : List Op} {m : DeploymentManager} (h : Registered tr m)
    (a b : String) (percent : ℚ) :
    Registered (tr ++ [.startAbTest a b percent]) (m.startAbTest a b percent) := by
  unfold startAbTest
  cases ha : m.deployments.get? a with
  | none => exact h.unchanged rfl
  | some va =>
    cases hb : m.deployments.get? b with
    | none => exact h.unchanged rfl
    | some vb =>
      refine h.snoc rfl rfl (Or.inl rfl) (fun _ hc => hc)
        (fun c hc => ⟨h.current c hc, fun v => h.canary c v hc⟩) ?_
      intro t ht
      obtain rfl := Option.some.inj ht
      exact ⟨h.recorded _ _ ha, h.recorded _ _ hb⟩

theorem registered_routeRequest {tr : List Op} {m : DeploymentManager} (h : Registered tr m)
    (draw : Draw) : Registered (tr ++ [.routeRequest draw]) (m.routeRequest draw).2 := by
  cases hcan : m.canary with
  | some c =>
    obtain ⟨hcur, hver⟩ := c.routeRequest_versions draw
    rw [routeRequest_of_canary hcan]
    refine h.snoc rfl rfl (Or.inl rfl) (fun _ hn => ?_) ?_ h.variants
    · rw [hn] at hcan; cases hcan
    · intro c' hc'
      obtain rfl := Option.some.inj hc'
      rw [hcur, hver]
      exact ⟨h.current c hcan, fun v => h.canary c v hcan⟩
  | none =>
    cases hab : m.abTest with
    | none =>
      rw [routeRequest_of_none hcan hab]
      exact h.unchanged rfl
    | some t =>
      obtain ⟨ha, hb⟩ := t.routeRequest_variants none draw
      rw [routeRequest_of_abTest hcan hab]
      refine h.snoc rfl rfl (Or.inl rfl) (fun _ hn => hn)
        (fun c hc => ⟨h.current c hc, fun v => h.canary c v hc⟩) ?_
      intro t' ht'
      obtain rfl := Option.some.inj ht'
      rw [ha, hb]
      exact h.variants t hab

theorem registered_step {tr : List Op} {m : DeploymentManager} (h : Registered tr m) (op : Op) :
    Registered (tr ++ [op]) (step m op) := by
  cases op with
  | deployModel modelId version uri now => exact registered_deployModel h modelId version uri now
  | startCanaryDeployment v p => exact registered_startCanary h v p
  | promoteCanary => exact registered_promoteCanary h
  | rollbackDeployment => exact registered_rollback h
  | startAbTest a b p => exact registered_startAbTest h a b p
  | routeRequest draw => exact registered_routeRequest h draw
  | getDeploymentStatus => exact h.unchanged rfl

/-- Every history leaves a registered manager. -/
theorem registered_run (tr : List Op) : Registered tr (run step init tr) :=
  run_history registered_init (fun _ _ h op => registered_step h op) tr

/-! ## Intact canaries -/

/-- A canary in the slot still has its canary version. -/
def Intact (m : DeploymentManager) : Prop := ∀ c, m.canary = some c → c.canaryVersion ≠ none

/-- An intact manager serves. -/
theorem Registered.serves {tr : List Op} {m : DeploymentManager} (h : Registered tr m)
    (hne : deployed tr ≠ []) (hi : Intact m) : Serves (deployed tr) m where
  route draw := by
    cases hcan : m.canary with
    | some c =>
      obtain ⟨v, hv⟩ := Option.ne_none_iff_exists'.mp (hi c hcan)
      rw [routeRequest_of_canary hcan, c.routeRequest_fst, hv]
      split_ifs
      · exact ⟨v, h.canary c v hcan hv, rfl⟩
      · exact ⟨_, h.current c hcan, rfl⟩
    | none =>
      cases hab : m.abTest with
      | some t =>
        obtain ⟨ha, hb⟩ := h.variants t hab
        rw [routeRequest_of_abTest hcan hab]
        rcases t.routeRequest_mem none draw with ht | ht
        · exact ⟨_, ha, by rw [ht]⟩
        · exact ⟨_, hb, by rw [ht]⟩
      | none =>
        obtain ⟨k, hk, hactive⟩ := h.active hne
        obtain ⟨v, hv⟩ := Dict.mem_keys_iff.mp hk
        rw [routeRequest_of_none hcan hab, activeRecord_eq_ok.mpr ⟨k, hactive, hv⟩]
        exact ⟨v, h.recorded k v hv, rfl⟩
  promote := by
    cases hcan : m.canary with
    | none => rw [promoteCanary_of_none hcan]; exact returns_ok _
    | some c =>
      obtain ⟨v, hv⟩ := Option.ne_none_iff_exists'.mp (hi c hcan)
      rw [promoteCanary_of_some hcan hv]; exact returns_ok _
  rollback := by
    cases hcan : m.canary with
    | none => rw [rollbackDeployment_of_none hcan]; exact returns_ok _
    | some c =>
      obtain ⟨v, hv⟩ := Option.ne_none_iff_exists'.mp (hi c hcan)
      rw [rollbackDeployment_of_some hcan hv]; exact returns_ok _
  status := returns_getDeploymentStatus.mpr fun c hcan =>
    c.returns_getCanaryStats.mpr (Or.inr (hi c hcan))

/-- A manager that serves is intact: promotion raises on a canary without its version. -/
theorem Serves.intact {records : List DeploymentVersion} {m : DeploymentManager}
    (h : Serves records m) : Intact m := by
  intro c hcan hv
  have hp := h.promote
  rw [promoteCanary_of_gone hcan hv] at hp
  exact not_returns_error _ hp

theorem serves_iff_intact {tr : List Op} {m : DeploymentManager} (h : Registered tr m)
    (hne : deployed tr ≠ []) : Serves (deployed tr) m ↔ Intact m :=
  ⟨Serves.intact, h.serves hne⟩

/-- The calls that keep an intact manager intact: all but a rollback with a canary in the slot. -/
def SafeCall (m : DeploymentManager) (op : Op) : Prop :=
  op = .rollbackDeployment → m.canary = none

theorem intact_of_canary_eq {m m' : DeploymentManager} (h : Intact m) (e : m'.canary = m.canary) :
    Intact m' := fun c hc => h c (e ▸ hc)

theorem rollbackDeployment_intact_iff {m : DeploymentManager} (h : Intact m) :
    m.canary = none ↔ Intact m.rollbackDeployment.2 := by
  constructor
  · intro hcan
    rw [rollbackDeployment_of_none hcan]
    exact h
  · intro hi
    by_contra hne
    obtain ⟨c, hcan⟩ := Option.ne_none_iff_exists'.mp hne
    obtain ⟨v, hv⟩ := Option.ne_none_iff_exists'.mp (h c hcan)
    rw [rollbackDeployment_of_some hcan hv] at hi
    exact hi _ rfl rfl

theorem startCanaryDeployment_intact {m : DeploymentManager} (h : Intact m) (version : String)
    (percent : ℚ) : Intact (m.startCanaryDeployment version percent).2 := by
  unfold startCanaryDeployment
  split_ifs
  · exact h
  cases m.activeRecord with
  | error e => exact h
  | ok current =>
    cases m.deployments.get? version with
    | none => exact h
    | some canary =>
      intro c hc
      obtain rfl := Option.some.inj hc
      exact Option.some_ne_none _

theorem promoteCanary_intact {m : DeploymentManager} (h : Intact m) :
    Intact m.promoteCanary.2 := by
  cases hcan : m.canary with
  | none =>
    rw [promoteCanary_of_none hcan]
    exact h
  | some c =>
    obtain ⟨v, hv⟩ := Option.ne_none_iff_exists'.mp (h c hcan)
    rw [promoteCanary_of_some hcan hv]
    intro c' hc'
    cases hc'

theorem routeRequest_intact {m : DeploymentManager} (h : Intact m) (draw : Draw) :
    Intact (m.routeRequest draw).2 := by
  cases hcan : m.canary with
  | some c =>
    rw [routeRequest_of_canary hcan]
    intro c' hc'
    obtain rfl := Option.some.inj hc'
    rw [(c.routeRequest_versions draw).2]
    exact h c hcan
  | none =>
    refine intact_of_canary_eq h ?_
    rw [canary_routeRequest_of_none hcan, hcan]

/-- Only a rollback can take the version out of the canary slot. -/
theorem step_intact_iff {m : DeploymentManager} (h : Intact m) (op : Op) :
    SafeCall m op ↔ Intact (step m op) := by
  cases op with
  | rollbackDeployment =>
    have hrollback : m.canary = none ↔ Intact (step m .rollbackDeployment) :=
      rollbackDeployment_intact_iff h
    rw [← hrollback]
    exact ⟨fun hs => hs rfl, fun hcan _ => hcan⟩
  | deployModel modelId version uri now =>
    refine ⟨fun _ => intact_of_canary_eq h ?_, fun _ e => by cases e⟩
    show (m.deployModel modelId version uri now).2.canary = _
    rw [deployModel_snd]
  | startCanaryDeployment version percent =>
    exact ⟨fun _ => startCanaryDeployment_intact h version percent, fun _ e => by cases e⟩
  | promoteCanary => exact ⟨fun _ => promoteCanary_intact h, fun _ e => by cases e⟩
  | startAbTest a b percent =>
    refine ⟨fun _ => intact_of_canary_eq h ?_, fun _ e => by cases e⟩
    show (m.startAbTest a b percent).canary = _
    rw [startAbTest_eq]
  | routeRequest draw => exact ⟨fun _ => routeRequest_intact h draw, fun _ e => by cases e⟩
  | getDeploymentStatus => exact ⟨fun _ => h, fun _ e => by cases e⟩

/-! ## Whole histories -/

theorem intact_init : Intact init := fun _ hc => by cases hc

/-- The managers of a history are all intact exactly when no call of it is a rollback with a
canary in the slot. -/
theorem forall_intact_iff (tr : List Op) :
    (∀ pre, pre <+: tr → Intact (run step init pre)) ↔ Along step SafeCall init tr :=
  forall_prefix_iff_along intact_init
    (fun pre h op => by rw [run_snoc]; exact step_intact_iff h op) tr

/-- Nothing deployed, no canary. -/
theorem intact_of_deployed_nil {pre : List Op} (he : deployed pre = []) :
    Intact (run step init pre) := by
  intro c hc
  rw [((registered_run pre).idle he).2] at hc
  cases hc

/-- **Routing contract.** A history keeps the contract exactly when `rollback_deployment` is never
called while there is a canary in the slot. -/
theorem keepsContract_iff (tr : List Op) : KeepsContract tr ↔ Along step SafeCall init tr := by
  constructor
  · intro h
    refine (forall_intact_iff tr).mp fun pre hpre => ?_
    by_cases he : deployed pre = []
    · exact intact_of_deployed_nil he
    · exact (h.serves pre hpre he).intact
  · intro h
    refine ⟨fun pre hpre hne => ?_, fun pre c hpre hcan => ?_⟩
    · exact (registered_run pre).serves hne ((forall_intact_iff tr).mpr h pre hpre)
    · -- an allowed rollback finds the slot empty
      obtain ⟨post, rfl⟩ := hpre
      rw [List.append_assoc] at h
      have hnone : (run step init pre).canary = none := h.at rfl
      rw [hnone] at hcan
      cases hcan

/-- Two versions, a canary of the second at 50 percent, and its rollback. -/
def canaryRolledBack (now : Datetime) : List Op :=
  [.deployModel "m1" "v1" "s3://models/v1" now, .deployModel "m1" "v2" "s3://models/v2" now,
    .startCanaryDeployment "v2" 50, .rollbackDeployment]

/-- After the rollback a request drawn below 0.5 gets `None`, promotion and a second rollback
raise, and so does the status once a request was routed. -/
theorem canaryRolledBack_breaks :
    let m := run step init (canaryRolledBack ⟨2026, 1, 1, 0, 0, 0, 0⟩)
    (m.routeRequest ⟨0, by decide⟩).1 = .ok none ∧
      m.promoteCanary.1 = .error (.noneAttribute "version") ∧
      m.rollbackDeployment.1 = .error (.noneAttribute "version") ∧
      (m.routeRequest ⟨0, by decide⟩).2.getDeploymentStatus =
        .error (.noneAttribute "version") ∧
      ¬ KeepsContract (canaryRolledBack ⟨2026, 1, 1, 0, 0, 0, 0⟩) := by
  have hroute : ((run step init (canaryRolledBack ⟨2026, 1, 1, 0, 0, 0, 0⟩)).routeRequest
      ⟨0, by decide⟩).1 = .ok none := by decide +kernel
  refine ⟨hroute, by decide +kernel, by decide +kernel, by decide +kernel, fun h => ?_⟩
  obtain ⟨v, -, hv⟩ := (h.serves _ List.prefix_rfl (by simp [canaryRolledBack, deployed,
    Op.deployed?])).route ⟨0, by decide⟩
  rw [hroute] at hv
  cases hv

end DeploymentManager

end PyStreamAI
