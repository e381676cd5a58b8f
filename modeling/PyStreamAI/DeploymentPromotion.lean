import PyStreamAI.DeploymentSafety

/-!
# What is routed to after a promotion

Promotion sets the active version and empties the canary slot, and leaves an A/B test in its slot.
`Settled` says what decides the next request then, and is kept by every call that starts no
experiment and does not deploy the promoted version again (`Settled.step`).
-/

open Py Machine

namespace PyStreamAI

namespace DeploymentManager

/-! ## The registry, from the history -/

/-- The record deployed last under a version. -/
def lastDeployed (tr : List Op) (version : String) : Option DeploymentVersion :=
  (deployed tr).reverse.find? fun record => record.version = version

theorem deployments_step {m : DeploymentManager} {op : Op} (h : op.deployed? = none) :
    (step m op).deployments = m.deployments := by
  cases op with
  | deployModel modelId version uri now => cases h
  | startCanaryDeployment version percent =>
    show (m.startCanaryDeployment version percent).2.deployments = m.deployments
    rw [startCanaryDeployment_snd]
  | promoteCanary =>
    show m.promoteCanary.2.deployments = m.deployments
    rw [promoteCanary_snd]
  | rollbackDeployment =>
    show m.rollbackDeployment.2.deployments = m.deployments
    rw [rollbackDeployment_snd]
  | startAbTest a b percent =>
    show (m.startAbTest a b percent).deployments = m.deployments
    rw [startAbTest_eq]
  | routeRequest draw =>
    show (m.routeRequest draw).2.deployments = m.deployments
    rw [routeRequest_snd]
  | getDeploymentStatus => rfl

/-- The registry holds the record deployed last under each version. -/
theorem deployments_run (tr : List Op) (k : String) :
    (run step init tr).deployments.get? k = lastDeployed tr k := by
  induction tr using List.reverseRecOn with
  | nil => rfl
  | append_singleton tr op ih =>
    unfold lastDeployed at ih ⊢
    rw [run_snoc, deployed_snoc]
    cases hop : op.deployed? with
    | none =>
      rw [deployments_step hop, ih, Option.toList_none, List.append_nil]
    | some record =>
      cases op with
      | deployModel modelId version uri now =>
        obtain rfl := Option.some.inj hop
        show ((run step init tr).deployModel modelId version uri now).2.deployments.get? k = _
        rw [deployModel_snd, Option.toList_some, List.reverse_append, List.reverse_singleton,
          List.singleton_append, List.find?_cons]
        dsimp only
        rw [Dict.get?_set, ih]
        by_cases hk : k = version
        · simp [hk, deployedRecord]
        · simp [hk, Ne.symm hk, deployedRecord]
      | _ => cases hop

/-! ## After a promotion -/

/-- The call starts no canary and no A/B test, and does not deploy `version`. -/
structure Quiet (version : String) (m : DeploymentManager) (op : Op) : Prop where
  deploy : ∀ modelId uri now, op ≠ .deployModel modelId version uri now
  canary : ∀ v percent, op = .startCanaryDeployment v percent → (step m op).canary = m.canary
  abTest : ∀ a b percent, op = .startAbTest a b percent → (step m op).abTest = m.abTest

/-- No canary, the active version and its record, and the variants of the A/B test, if there is
one. -/
structure Settled (version : String) (record : DeploymentVersion)
    (variants : Option (DeploymentVersion × DeploymentVersion)) (m : DeploymentManager) : Prop where
  canary : m.canary = none
  active : m.activeDeployment = some version
  deployed : m.deployments.get? version = some record
  abTest : m.abTest.map (fun t => (t.variantA, t.variantB)) = variants

theorem Settled.step {version : String} {record : DeploymentVersion}
    {variants : Option (DeploymentVersion × DeploymentVersion)} {m : DeploymentManager}
    (h : Settled version record variants m) {op : Op} (hop : Quiet version m op) :
    Settled version record variants (step m op) := by
  cases op with
  | deployModel modelId version' uri now =>
    show Settled version record variants (m.deployModel modelId version' uri now).2
    rw [deployModel_snd, h.active]
    refine ⟨h.canary, rfl, ?_, h.abTest⟩
    have hne : version ≠ version' := fun e => hop.deploy modelId uri now (by rw [e])
    dsimp only
    rw [Dict.get?_set, if_neg hne]
    exact h.deployed
  | startCanaryDeployment v percent =>
    have hsame : (m.startCanaryDeployment v percent).2.canary = m.canary := hop.canary v percent rfl
    show Settled version record variants (m.startCanaryDeployment v percent).2
    rw [startCanaryDeployment_snd, hsame]
    exact h
  | promoteCanary =>
    show Settled version record variants m.promoteCanary.2
    rw [promoteCanary_of_none h.canary]
    exact h
  | rollbackDeployment =>
    show Settled version record variants m.rollbackDeployment.2
    rw [rollbackDeployment_of_none h.canary]
    exact h
  | startAbTest a b percent =>
    have hsame : (m.startAbTest a b percent).abTest = m.abTest := hop.abTest a b percent rfl
    show Settled version record variants (m.startAbTest a b percent)
    rw [startAbTest_eq, hsame]
    exact h
  | routeRequest draw =>
    show Settled version record variants (m.routeRequest draw).2
    cases hab : m.abTest with
    | none =>
      rw [routeRequest_of_none h.canary hab]
      exact h
    | some t =>
      obtain ⟨ha, hb⟩ := t.routeRequest_variants none draw
      have hvariants := h.abTest
      rw [hab] at hvariants
      rw [routeRequest_of_abTest h.canary hab]
      refine ⟨h.canary, h.active, h.deployed, ?_⟩
      rw [← hvariants]
      dsimp only [Option.map_some]
      rw [ha, hb]
  | getDeploymentStatus => exact h

theorem Settled.routeRequest {version : String} {record : DeploymentVersion}
    {variants : Option (DeploymentVersion × DeploymentVersion)} {m : DeploymentManager}
    (h : Settled version record variants m) (draw : Draw) :
    (variants = none → (m.routeRequest draw).1 = .ok (some record)) ∧
      ∀ a b, variants = some (a, b) →
        (m.routeRequest draw).1 = .ok (some a) ∨ (m.routeRequest draw).1 = .ok (some b) := by
  constructor
  · rintro rfl
    have hab : m.abTest = none := Option.map_eq_none_iff.mp h.abTest
    rw [routeRequest_of_none h.canary hab,
      activeRecord_eq_ok.mpr ⟨version, h.active, h.deployed⟩]
    rfl
  · rintro a b rfl
    obtain ⟨t, ht, hpair⟩ := Option.map_eq_some_iff.mp h.abTest
    rw [Prod.mk.injEq] at hpair
    rw [routeRequest_of_abTest h.canary ht, ← hpair.1, ← hpair.2]
    rcases t.routeRequest_mem none draw with heq | heq
    · exact Or.inl (by rw [heq])
    · exact Or.inr (by rw [heq])

theorem settled_promoteCanary {tr : List Op} {c : CanaryDeployment} {v : DeploymentVersion}
    (hc : (run step init tr).canary = some c) (hv : c.canaryVersion = some v) :
    ∃ record, lastDeployed tr v.version = some record ∧
      Settled v.version record
        ((run step init tr).abTest.map fun t => (t.variantA, t.variantB))
        (run step init (tr ++ [.promoteCanary])) := by
  have hreg := registered_run tr
  have hkey := hreg.present v (hreg.canary c v hc hv)
  obtain ⟨record, hrecord⟩ := Dict.mem_keys_iff.mp hkey
  refine ⟨record, (deployments_run tr v.version).symm.trans hrecord, ?_⟩
  rw [run_snoc]
  show Settled v.version record _ (run step init tr).promoteCanary.2
  rw [promoteCanary_of_some hc hv]
  exact ⟨rfl, rfl, hrecord, rfl⟩

/-- **After a promotion.** As long as no canary and no A/B test is started and the promoted version
is not deployed again, every request goes to the record deployed last under that version, or to a
variant of the A/B test that was in its slot at the promotion. -/
theorem promoted_routeRequest {tr : List Op} {c : CanaryDeployment} {v : DeploymentVersion}
    (hc : (run step init tr).canary = some c) (hv : c.canaryVersion = some v) {post : List Op}
    (hquiet : Along step (Quiet v.version) (run step init (tr ++ [.promoteCanary])) post)
    (draw : Draw) :
    let m := run step init (tr ++ [.promoteCanary] ++ post)
    ((run step init tr).abTest = none → ∃ record, lastDeployed tr v.version = some record ∧
        (m.routeRequest draw).1 = .ok (some record)) ∧
      ∀ t, (run step init tr).abTest = some t → (m.routeRequest draw).1 = .ok (some t.variantA) ∨
        (m.routeRequest draw).1 = .ok (some t.variantB) := by
  obtain ⟨record, hlast, hsettled⟩ := settled_promoteCanary hc hv
  have hpost : Settled v.version record
      ((run step init tr).abTest.map fun t => (t.variantA, t.variantB))
      (run step init (tr ++ [.promoteCanary] ++ post)) := by
    rw [run_append]
    exact hquiet.history (P := fun _ m => Settled v.version record _ m) hsettled
      fun _ _ h hop => h.step hop
  obtain ⟨hnone, hsome⟩ := hpost.routeRequest draw
  refine ⟨fun hab => ⟨record, hlast, hnone ?_⟩, fun t ht => hsome _ _ ?_⟩
  · rw [hab]
    rfl
  · rw [ht]
    rfl

/-- Two versions and a canary of the second. -/
def canaryStarted (now : Datetime) : List Op :=
  [.deployModel "m1" "v1" "s3://models/v1" now, .deployModel "m1" "v2" "s3://models/v2" now,
    .startCanaryDeployment "v2" 50]

theorem canaryStarted_promoted :
    let now : Datetime := ⟨2026, 1, 1, 0, 0, 0, 0⟩
    let m := run step init (canaryStarted now ++ [.promoteCanary] ++
      [.deployModel "m1" "v3" "s3://models/v3" now])
    (m.routeRequest ⟨0, by decide⟩).1 =
      .ok (some (deployedRecord "m1" "v2" "s3://models/v2" now)) := by
  intro now m
  have hquiet : Along step (Quiet "v2") (run step init (canaryStarted now ++ [.promoteCanary]))
      [.deployModel "m1" "v3" "s3://models/v3" now] := by
    refine ⟨⟨fun modelId uri now' heq => ?_, fun v percent heq => ?_, fun a b percent heq => ?_⟩,
      trivial⟩
    · exact absurd (Op.deployModel.inj heq).2.1 (by decide)
    · cases heq
    · cases heq
  have hcanary : (run step init (canaryStarted now)).canary =
      some (.init (deployedRecord "m1" "v1" "s3://models/v1" now)
        (deployedRecord "m1" "v2" "s3://models/v2" now) 50) := by decide +kernel
  have h := (promoted_routeRequest (v := deployedRecord "m1" "v2" "s3://models/v2" now) hcanary rfl
    hquiet ⟨0, by decide⟩).1 (by decide +kernel)
  obtain ⟨record, hlast, hroute⟩ := h
  have hrecord : lastDeployed (canaryStarted now) "v2" =
      some (deployedRecord "m1" "v2" "s3://models/v2" now) := by decide +kernel
  rw [← Option.some.inj (hlast.symm.trans hrecord)]
  exact hroute

/-- An A/B test of the first and the third version, and then a canary of the second. -/
def abTestRunning (now : Datetime) : List Op :=
  [.deployModel "m1" "v1" "s3://models/v1" now, .deployModel "m1" "v2" "s3://models/v2" now,
    .deployModel "m1" "v3" "s3://models/v3" now, .startAbTest "v1" "v3" 50,
    .startCanaryDeployment "v2" 50]

/-- The promotion of the canary succeeds, and requests go on to the variants of the A/B test. -/
theorem abTestRunning_promoted :
    let now : Datetime := ⟨2026, 1, 1, 0, 0, 0, 0⟩
    let m := run step init (abTestRunning now ++ [.promoteCanary])
    (run step init (abTestRunning now)).promoteCanary.1 = .ok () ∧
      m.activeDeployment = some "v2" ∧ m.canary = none ∧
      (m.routeRequest ⟨0, by decide⟩).1 =
        .ok (some (deployedRecord "m1" "v1" "s3://models/v1" now)) ∧
      (m.routeRequest ⟨0, by decide⟩).1 ≠
        .ok (some (deployedRecord "m1" "v2" "s3://models/v2" now)) := by
  decide +kernel

end DeploymentManager

end PyStreamAI
