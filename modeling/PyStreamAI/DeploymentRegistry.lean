import PyStreamAI.DeploymentPromotion

/-!
# The registry of deployments

Every reachable manager is consistent: the active version, the current version of the canary and
the variants of the A/B test are keys of the registry, and every record is under its own version.
A call that raises changes nothing (`registry_run`). The registry knows a record by its version
alone, so it holds the records of several models apart exactly as long as no version is deployed
over a record of another model (`keepsOthers_iff`).
-/

open Py Machine

namespace PyStreamAI

namespace DeploymentManager

/-! ## What a call raises and what it activates -/

/-- The call raises. -/
def Raises (m : DeploymentManager) : Op → Prop
  | .deployModel _ _ _ _ => False
  | .startCanaryDeployment version percent => ¬ Returns (m.startCanaryDeployment version percent).1
  | .promoteCanary => ¬ Returns m.promoteCanary.1
  | .rollbackDeployment => ¬ Returns m.rollbackDeployment.1
  | .startAbTest _ _ _ => False
  | .routeRequest draw => ¬ Returns (m.routeRequest draw).1
  | .getDeploymentStatus => ¬ Returns m.getDeploymentStatus

theorem promoteCanary_of_raises {m : DeploymentManager} (h : ¬ Returns m.promoteCanary.1) :
    m.promoteCanary.2 = m := by
  cases hcan : m.canary with
  | none => rw [promoteCanary_of_none hcan]
  | some c =>
    cases hv : c.canaryVersion with
    | none => rw [promoteCanary_of_gone hcan hv]
    | some v =>
      rw [promoteCanary_of_some hcan hv] at h
      exact absurd (returns_ok _) h

theorem rollbackDeployment_of_raises {m : DeploymentManager}
    (h : ¬ Returns m.rollbackDeployment.1) : m.rollbackDeployment.2 = m := by
  cases hcan : m.canary with
  | none => rw [rollbackDeployment_of_none hcan]
  | some c =>
    cases hv : c.canaryVersion with
    | none => rw [rollbackDeployment_of_gone hcan hv]
    | some v =>
      rw [rollbackDeployment_of_some hcan hv] at h
      exact absurd (returns_ok _) h

theorem startCanaryDeployment_of_raises {m : DeploymentManager} {version : String} {percent : ℚ}
    (h : ¬ Returns (m.startCanaryDeployment version percent).1) :
    (m.startCanaryDeployment version percent).2 = m := by
  unfold startCanaryDeployment at h ⊢
  split_ifs at h ⊢
  · rfl
  · cases hcur : m.activeRecord with
    | error e => rfl
    | ok current =>
      rw [hcur] at h
      cases hcan : m.deployments.get? version with
      | none => rfl
      | some canary =>
        rw [hcan] at h
        exact absurd (returns_ok _) h

theorem routeRequest_of_raises {m : DeploymentManager} {draw : Draw}
    (h : ¬ Returns (m.routeRequest draw).1) : (m.routeRequest draw).2 = m := by
  cases hcan : m.canary with
  | some c =>
    rw [routeRequest_of_canary hcan] at h
    exact absurd (returns_ok _) h
  | none =>
    cases hab : m.abTest with
    | some t =>
      rw [routeRequest_of_abTest hcan hab] at h
      exact absurd (returns_ok _) h
    | none => rw [routeRequest_of_none hcan hab]

/-- A call that raises leaves the manager as it is. -/
theorem step_of_raises {m : DeploymentManager} {op : Op} (h : m.Raises op) : step m op = m := by
  cases op with
  | deployModel modelId version uri now => exact h.elim
  | startCanaryDeployment version percent => exact startCanaryDeployment_of_raises h
  | promoteCanary => exact promoteCanary_of_raises h
  | rollbackDeployment => exact rollbackDeployment_of_raises h
  | startAbTest a b percent => exact h.elim
  | routeRequest draw => exact routeRequest_of_raises h
  | getDeploymentStatus => rfl

/-- The calls that set the active version: the first deployment, and a promotion of a canary that
still has its version. -/
def Activates (m : DeploymentManager) (op : Op) : Prop :=
  (m.deployments.keys = [] ∧ ∃ record, op.deployed? = some record) ∨
    (op = .promoteCanary ∧ Returns m.promoteCanary.1 ∧ m.canary ≠ none)

/-- A call that changes the active version activates one. The manager is asked to have an active
version as soon as it has a deployment. -/
theorem activates_of_activeDeployment_ne {m : DeploymentManager}
    (hm : m.activeDeployment = none → m.deployments.keys = []) {op : Op}
    (h : (step m op).activeDeployment ≠ m.activeDeployment) : m.Activates op := by
  cases op with
  | deployModel modelId version uri now =>
    refine Or.inl ⟨hm ?_, _, rfl⟩
    by_contra hactive
    obtain ⟨k, hk⟩ := Option.ne_none_iff_exists'.mp hactive
    apply h
    show (m.deployModel modelId version uri now).2.activeDeployment = _
    rw [deployModel_snd, hk]
    rfl
  | startCanaryDeployment version percent =>
    refine absurd ?_ h
    show (m.startCanaryDeployment version percent).2.activeDeployment = _
    rw [startCanaryDeployment_snd]
  | promoteCanary =>
    refine Or.inr ⟨rfl, ?_, fun hcan => ?_⟩
    · by_contra hraises
      exact h (congrArg activeDeployment (promoteCanary_of_raises hraises))
    · apply h
      show m.promoteCanary.2.activeDeployment = _
      rw [promoteCanary_of_none hcan]
  | rollbackDeployment =>
    refine absurd ?_ h
    show m.rollbackDeployment.2.activeDeployment = _
    rw [rollbackDeployment_snd]
  | startAbTest a b percent =>
    refine absurd ?_ h
    show (m.startAbTest a b percent).activeDeployment = _
    rw [startAbTest_eq]
  | routeRequest draw =>
    refine absurd ?_ h
    show (m.routeRequest draw).2.activeDeployment = _
    rw [routeRequest_snd]
  | getDeploymentStatus => exact absurd rfl h

/-! ## Consistency -/

/-- The registry, the active version and the versions in the experiment slots fit together. -/
structure Consistent (m : DeploymentManager) : Prop where
  active_none : m.activeDeployment = none ↔ m.deployments.keys = []
  active_key : ∀ k, m.activeDeployment = some k → k ∈ m.deployments.keys
  keyed : ∀ k record, m.deployments.get? k = some record → record.version = k
  canary : ∀ c, m.canary = some c → c.currentVersion.version ∈ m.deployments.keys
  variants : ∀ t, m.abTest = some t →
    t.variantA.version ∈ m.deployments.keys ∧ t.variantB.version ∈ m.deployments.keys

theorem lastDeployed_eq_some {tr : List Op} {version : String} {record : DeploymentVersion}
    (h : lastDeployed tr version = some record) :
    record ∈ deployed tr ∧ record.version = version :=
  ⟨List.mem_reverse.mp (List.mem_of_find?_eq_some h), by simpa using List.find?_some h⟩

theorem keys_eq_nil_iff {tr : List Op} {m : DeploymentManager} (h : Registered tr m) :
    m.deployments.keys = [] ↔ deployed tr = [] := by
  constructor
  · intro hkeys
    refine List.eq_nil_iff_forall_not_mem.mpr fun v hv => ?_
    have hmem := h.present v hv
    rw [hkeys] at hmem
    cases hmem
  · intro hdep
    refine List.eq_nil_iff_forall_not_mem.mpr fun k hk => ?_
    obtain ⟨v, hv⟩ := Dict.mem_keys_iff.mp hk
    have hmem := h.recorded k v hv
    rw [hdep] at hmem
    cases hmem

theorem consistent_run (tr : List Op) : Consistent (run step init tr) := by
  have hreg := registered_run tr
  have hkeys := keys_eq_nil_iff hreg
  refine ⟨⟨fun hnone => ?_, fun hnil => (hreg.idle (hkeys.mp hnil)).1⟩, fun k hk => ?_,
    fun k record hrecord => ?_, fun c hc => hreg.present _ (hreg.current c hc), fun t ht =>
      ⟨hreg.present _ (hreg.variants t ht).1, hreg.present _ (hreg.variants t ht).2⟩⟩
  · by_contra hne
    obtain ⟨k, -, hk⟩ := hreg.active (mt hkeys.mpr hne)
    rw [hk] at hnone
    cases hnone
  · have hne : deployed tr ≠ [] := by
      intro hnil
      rw [(hreg.idle hnil).1] at hk
      cases hk
    obtain ⟨k', hmem, hk'⟩ := hreg.active hne
    rw [hk] at hk'
    exact Option.some.inj hk' ▸ hmem
  · rw [deployments_run] at hrecord
    exact (lastDeployed_eq_some hrecord).2

/-- **Registry.** Every reachable manager is consistent, a call changes the active version only
by activating one, and a call that raises changes nothing. -/
theorem registry_run (tr : List Op) :
    Consistent (run step init tr) ∧ ∀ op,
      ((step (run step init tr) op).activeDeployment ≠ (run step init tr).activeDeployment →
        (run step init tr).Activates op) ∧
      ((run step init tr).Raises op → step (run step init tr) op = run step init tr) :=
  have hcons := consistent_run tr
  ⟨hcons, fun _ =>
    ⟨activates_of_activeDeployment_ne hcons.active_none.mp, step_of_raises⟩⟩

/-! ## Deployments of several models -/

/-- The record deployed last for a model under a version. -/
def lastDeployedFor (tr : List Op) (modelId version : String) : Option DeploymentVersion :=
  (deployed tr).reverse.find? fun record => record.modelId = modelId ∧ record.version = version

/-- What the deployment of a version of `modelId` after the history `pre` is to leave alone: the
records of all other models, and without a canary and an A/B test the answer to requests if the
active record is one of them. -/
structure KeepsOthers (pre : List Op) (modelId version uri : String) (now : Datetime) : Prop where
  recorded : ∀ m v record, m ≠ modelId → lastDeployedFor pre m v = some record →
    ((run step init pre).deployModel modelId version uri now).2.deployments.get? v = some record
  routed : ∀ record, (run step init pre).activeRecord = .ok record → record.modelId ≠ modelId →
    (run step init pre).canary = none → (run step init pre).abTest = none → ∀ draw draw',
      (((run step init pre).deployModel modelId version uri now).2.routeRequest draw').1 =
        ((run step init pre).routeRequest draw).1

/-- A deployment finds no record of another model under its version. -/
def FreeOrOwn (m : DeploymentManager) (op : Op) : Prop :=
  ∀ modelId version uri now, op = .deployModel modelId version uri now →
    ∀ record, m.deployments.get? version = some record → record.modelId = modelId

/-- The registry holds the record deployed last for each model under each version. -/
def HoldsAll (tr : List Op) (m : DeploymentManager) : Prop :=
  ∀ modelId version record, lastDeployedFor tr modelId version = some record →
    m.deployments.get? version = some record

theorem lastDeployedFor_modelId {tr : List Op} {modelId version : String}
    {record : DeploymentVersion} (h : lastDeployedFor tr modelId version = some record) :
    record.modelId = modelId := by
  have hp := List.find?_some h
  rw [decide_eq_true_eq] at hp
  exact hp.1

theorem lastDeployedFor_of_none {op : Op} (h : op.deployed? = none) (tr : List Op)
    (modelId version : String) :
    lastDeployedFor (tr ++ [op]) modelId version = lastDeployedFor tr modelId version := by
  unfold lastDeployedFor
  rw [deployed_snoc, h, Option.toList_none, List.append_nil]

theorem lastDeployedFor_deployModel (tr : List Op) (modelId version uri : String) (now : Datetime)
    (m v : String) :
    lastDeployedFor (tr ++ [.deployModel modelId version uri now]) m v =
      if modelId = m ∧ version = v then some (deployedRecord modelId version uri now)
      else lastDeployedFor tr m v := by
  have hdep : deployed (tr ++ [.deployModel modelId version uri now]) =
      deployed tr ++ [deployedRecord modelId version uri now] := deployed_snoc _ _
  unfold lastDeployedFor
  rw [hdep, List.reverse_append, List.reverse_singleton, List.singleton_append, List.find?_cons]
  by_cases h : modelId = m ∧ version = v
  · simp [h, deployedRecord]
  · rw [if_neg h, decide_eq_false (show ¬ ((deployedRecord modelId version uri now).modelId = m ∧
      (deployedRecord modelId version uri now).version = v) from h)]

/-- The record deployed last under a version is the last one of its model there. -/
theorem lastDeployedFor_of_lastDeployed {tr : List Op} {version : String}
    {record : DeploymentVersion} (h : lastDeployed tr version = some record) :
    lastDeployedFor tr record.modelId version = some record := by
  obtain ⟨hv, as, bs, heq, has⟩ := List.find?_eq_some_iff_append.mp h
  rw [decide_eq_true_eq] at hv
  refine List.find?_eq_some_iff_append.mpr ⟨by simp [hv], as, bs, heq, fun a ha => ?_⟩
  have hne := has a ha
  simp only [Bool.not_eq_true', decide_eq_false_iff_not] at hne ⊢
  exact fun h => hne h.2

theorem get?_deployModel (m : DeploymentManager) (modelId version uri : String) (now : Datetime)
    (v : String) :
    (m.deployModel modelId version uri now).2.deployments.get? v =
      if v = version then some (deployedRecord modelId version uri now)
      else m.deployments.get? v := by
  rw [deployModel_snd]
  exact Dict.get?_set _ _ _ _

theorem HoldsAll.step {tr : List Op} {m : DeploymentManager} (h : HoldsAll tr m) {op : Op}
    (hop : FreeOrOwn m op) : HoldsAll (tr ++ [op]) (step m op) := by
  intro a v record hlast
  cases hdep : op.deployed? with
  | none =>
    rw [lastDeployedFor_of_none hdep] at hlast
    rw [deployments_step hdep]
    exact h a v record hlast
  | some new =>
    cases op with
    | deployModel modelId version uri now =>
      rw [lastDeployedFor_deployModel] at hlast
      show (m.deployModel modelId version uri now).2.deployments.get? v = some record
      rw [get?_deployModel]
      by_cases hnew : modelId = a ∧ version = v
      · rw [if_pos hnew] at hlast
        rw [if_pos hnew.2.symm, hlast]
      · rw [if_neg hnew] at hlast
        have hheld := h a v record hlast
        -- the version of another model's record is not deployed over
        rw [if_neg, hheld]
        rintro rfl
        exact hnew ⟨(hop modelId v uri now rfl record hheld).symm.trans
          (lastDeployedFor_modelId hlast), rfl⟩
    | _ => cases hdep

theorem holdsAll_run {tr : List Op} (h : Along step FreeOrOwn init tr) :
    HoldsAll tr (run step init tr) :=
  h.history (P := HoldsAll) (fun _ _ _ hlast => by cases hlast) fun _ _ hP hC => hP.step hC

/-- A deployment over no other model's record leaves the other models alone. -/
theorem keepsOthers_of_freeOrOwn {pre : List Op} {modelId version uri : String} {now : Datetime}
    (h : HoldsAll pre (run step init pre))
    (hop : FreeOrOwn (run step init pre) (.deployModel modelId version uri now)) :
    KeepsOthers pre modelId version uri now where
  recorded a v record hne hlast := by
    have hheld := h a v record hlast
    rw [get?_deployModel, if_neg, hheld]
    rintro rfl
    exact hne ((lastDeployedFor_modelId hlast).symm.trans
      (hop modelId v uri now rfl record hheld))
  routed record hactive hne hcan hab draw draw' := by
    obtain ⟨k, hk, hget⟩ := activeRecord_eq_ok.mp hactive
    have hafter : ((run step init pre).deployModel modelId version uri now).2.activeRecord =
        .ok record := by
      refine activeRecord_eq_ok.mpr ⟨k, ?_, ?_⟩
      · rw [deployModel_snd, hk]
        rfl
      · rw [get?_deployModel, if_neg, hget]
        rintro rfl
        exact hne (hop modelId k uri now rfl record hget)
    have hcan' : ((run step init pre).deployModel modelId version uri now).2.canary = none := by
      rw [deployModel_snd]; exact hcan
    have hab' : ((run step init pre).deployModel modelId version uri now).2.abTest = none := by
      rw [deployModel_snd]; exact hab
    rw [routeRequest_of_none hcan hab, routeRequest_of_none hcan' hab', hactive, hafter]

/-- A deployment that leaves the other models alone is over none of their records. -/
theorem KeepsOthers.freeOrOwn {pre : List Op} {modelId version uri : String} {now : Datetime}
    (h : KeepsOthers pre modelId version uri now) {record : DeploymentVersion}
    (hrecord : (run step init pre).deployments.get? version = some record) :
    record.modelId = modelId := by
  by_contra hne
  have hlast := (deployments_run pre version).symm.trans hrecord
  have hafter := h.recorded _ _ record hne (lastDeployedFor_of_lastDeployed hlast)
  rw [get?_deployModel, if_pos rfl, Option.some.injEq] at hafter
  exact hne (congrArg DeploymentVersion.modelId hafter.symm)

/-- **Models apart.** Every deployment of a history leaves the other models alone exactly when no
deployment of it finds another model's record under its version. -/
theorem keepsOthers_iff (tr : List Op) :
    (∀ pre modelId version uri now, pre ++ [.deployModel modelId version uri now] <+: tr →
      KeepsOthers pre modelId version uri now) ↔ Along step FreeOrOwn init tr := by
  rw [along_iff_forall]
  constructor
  · rintro h pre op hpre modelId version uri now rfl record hrecord
    exact (h pre modelId version uri now hpre).freeOrOwn hrecord
  · intro h pre modelId version uri now hpre
    have halong : Along step FreeOrOwn init pre :=
      along_iff_forall.mpr fun p op hp =>
        h p op (hp.trans ((List.prefix_append pre _).trans hpre))
    exact keepsOthers_of_freeOrOwn (holdsAll_run halong) (h pre _ hpre)

/-- Two models, both with a version `v1`: the second deployment takes the place of the first in
the registry, and its traffic. -/
theorem sameLabel_replaces :
    let now : Datetime := ⟨2026, 1, 1, 0, 0, 0, 0⟩
    let pre : List Op := [.deployModel "sentiment" "v1" "s3://sentiment/v1" now]
    let m := (run step init pre).deployModel "fraud" "v1" "s3://fraud/v1" now
    (∀ entry ∈ m.2.deployments.entries, entry.2.modelId ≠ "sentiment") ∧
      ((run step init pre).routeRequest ⟨0, by decide⟩).1 =
        .ok (some (deployedRecord "sentiment" "v1" "s3://sentiment/v1" now)) ∧
      (m.2.routeRequest ⟨0, by decide⟩).1 =
        .ok (some (deployedRecord "fraud" "v1" "s3://fraud/v1" now)) ∧
      ¬ KeepsOthers pre "fraud" "v1" "s3://fraud/v1" now := by
  refine ⟨by decide +kernel, by decide +kernel, by decide +kernel, fun h => ?_⟩
  have hheld := h.recorded "sentiment" "v1" (deployedRecord "sentiment" "v1" "s3://sentiment/v1"
    ⟨2026, 1, 1, 0, 0, 0, 0⟩) (by decide) (by decide +kernel)
  revert hheld
  decide +kernel

end DeploymentManager

end PyStreamAI
