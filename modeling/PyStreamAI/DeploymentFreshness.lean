import PyStreamAI.DeploymentRegistry

/-!
# Which deployment of a version is served

Without an experiment a request gets the record deployed last under the active version, looked up
when it is routed. A canary and an A/B test hold the records that were deployed last when they were
started (`pinned_run`), and serve them whatever is deployed since. So a request gets the latest
record of its version exactly when that version was not deployed anew since the experiment that
answers was started (`routesLatest_iff`).
-/

open Py Machine

namespace PyStreamAI

namespace DeploymentManager

/-! ## Where the experiments come from -/

/-- The call puts a new canary into the slot. -/
def startsCanary (m : DeploymentManager) : Op → Bool
  | .startCanaryDeployment version _ =>
    m.activeDeployment.isSome && m.deployments.contains version
  | _ => false

/-- The call puts a new A/B test into the slot. -/
def startsAbTest (m : DeploymentManager) : Op → Bool
  | .startAbTest a b _ => m.deployments.contains a && m.deployments.contains b
  | _ => false

/-- The history before the last canary was started. -/
def canaryStart (tr : List Op) : List Op := beforeLast step startsCanary init tr

/-- The history before the last A/B test was started. -/
def abTestStart (tr : List Op) : List Op := beforeLast step startsAbTest init tr

/-- The versions in the canary slot were there before. -/
def CanaryFrom (m m' : DeploymentManager) : Prop :=
  ∀ c', m'.canary = some c' → ∃ c, m.canary = some c ∧ c'.currentVersion = c.currentVersion ∧
    ∀ v, c'.canaryVersion = some v → c.canaryVersion = some v

/-- The variants in the A/B test slot were there before. -/
def VariantsFrom (m m' : DeploymentManager) : Prop :=
  ∀ t', m'.abTest = some t' → ∃ t, m.abTest = some t ∧ t'.variantA = t.variantA ∧
    t'.variantB = t.variantB

theorem canaryFrom_of_eq {m m' : DeploymentManager} (h : m'.canary = m.canary) :
    CanaryFrom m m' := fun c' hc => ⟨c', h ▸ hc, rfl, fun _ hv => hv⟩

theorem variantsFrom_of_eq {m m' : DeploymentManager} (h : m'.abTest = m.abTest) :
    VariantsFrom m m' := fun t' ht => ⟨t', h ▸ ht, rfl, rfl⟩

theorem startCanaryDeployment_of_not {m : DeploymentManager} {version : String} {percent : ℚ}
    (h : startsCanary m (.startCanaryDeployment version percent) = false) :
    (m.startCanaryDeployment version percent).2 = m := by
  simp only [startsCanary, Dict.contains, Bool.and_eq_false_iff] at h
  unfold startCanaryDeployment
  split_ifs with hactive
  · rfl
  · have hnone : m.deployments.get? version = none := by
      rcases h with h | h
      · exact absurd (Option.isNone_iff_eq_none.mp (Option.isSome_eq_false_iff.mp h)) hactive
      · exact Option.isNone_iff_eq_none.mp (Option.isSome_eq_false_iff.mp h)
    rw [hnone]
    cases m.activeRecord <;> rfl

theorem startAbTest_of_not {m : DeploymentManager} {a b : String} {percent : ℚ}
    (h : startsAbTest m (.startAbTest a b percent) = false) : m.startAbTest a b percent = m := by
  simp only [startsAbTest, Dict.contains] at h
  unfold startAbTest
  split
  · rename_i va vb ha hb
    rw [ha, hb] at h
    cases h
  · rfl

theorem promoteCanary_canaryFrom (m : DeploymentManager) : CanaryFrom m m.promoteCanary.2 := by
  cases hcan : m.canary with
  | none =>
    rw [promoteCanary_of_none hcan]
    exact canaryFrom_of_eq rfl
  | some c =>
    cases hv : c.canaryVersion with
    | none =>
      rw [promoteCanary_of_gone hcan hv]
      exact canaryFrom_of_eq rfl
    | some v =>
      rw [promoteCanary_of_some hcan hv]
      intro c' hc'
      cases hc'

theorem rollbackDeployment_canaryFrom (m : DeploymentManager) :
    CanaryFrom m m.rollbackDeployment.2 := by
  cases hcan : m.canary with
  | none =>
    rw [rollbackDeployment_of_none hcan]
    exact canaryFrom_of_eq rfl
  | some c =>
    cases hv : c.canaryVersion with
    | none =>
      rw [rollbackDeployment_of_gone hcan hv]
      exact canaryFrom_of_eq rfl
    | some v =>
      rw [rollbackDeployment_of_some hcan hv]
      intro c' hc'
      obtain rfl := Option.some.inj hc'
      exact ⟨c, hcan, rfl, fun _ hgone => by cases hgone⟩

theorem routeRequest_canaryFrom (m : DeploymentManager) (draw : Draw) :
    CanaryFrom m (m.routeRequest draw).2 := by
  cases hcan : m.canary with
  | some c =>
    obtain ⟨hcur, hver⟩ := c.routeRequest_versions draw
    rw [routeRequest_of_canary hcan]
    intro c' hc'
    obtain rfl := Option.some.inj hc'
    exact ⟨c, hcan, hcur, fun v hv => hver ▸ hv⟩
  | none =>
    refine canaryFrom_of_eq ?_
    rw [canary_routeRequest_of_none hcan, hcan]

theorem routeRequest_variantsFrom (m : DeploymentManager) (draw : Draw) :
    VariantsFrom m (m.routeRequest draw).2 := by
  cases hcan : m.canary with
  | some c =>
    refine variantsFrom_of_eq ?_
    rw [routeRequest_of_canary hcan]
  | none =>
    cases hab : m.abTest with
    | none =>
      rw [routeRequest_of_none hcan hab]
      exact variantsFrom_of_eq rfl
    | some t =>
      obtain ⟨ha, hb⟩ := t.routeRequest_variants none draw
      rw [routeRequest_of_abTest hcan hab]
      intro t' ht'
      obtain rfl := Option.some.inj ht'
      exact ⟨t, hab, ha, hb⟩

/-- A call that starts no canary puts no version into the canary slot. -/
theorem canaryFrom_step {m : DeploymentManager} {op : Op} (h : startsCanary m op = false) :
    CanaryFrom m (step m op) := by
  cases op with
  | deployModel modelId version uri now =>
    refine canaryFrom_of_eq ?_
    show (m.deployModel modelId version uri now).2.canary = _
    rw [deployModel_snd]
  | startCanaryDeployment version percent =>
    refine canaryFrom_of_eq ?_
    show (m.startCanaryDeployment version percent).2.canary = _
    rw [startCanaryDeployment_of_not h]
  | promoteCanary => exact promoteCanary_canaryFrom m
  | rollbackDeployment => exact rollbackDeployment_canaryFrom m
  | startAbTest a b percent =>
    refine canaryFrom_of_eq ?_
    show (m.startAbTest a b percent).canary = _
    rw [startAbTest_eq]
  | routeRequest draw => exact routeRequest_canaryFrom m draw
  | getDeploymentStatus => exact canaryFrom_of_eq rfl

/-- A call that starts no A/B test puts no variant into the A/B test slot. -/
theorem variantsFrom_step {m : DeploymentManager} {op : Op} (h : startsAbTest m op = false) :
    VariantsFrom m (step m op) := by
  cases op with
  | deployModel modelId version uri now =>
    refine variantsFrom_of_eq ?_
    show (m.deployModel modelId version uri now).2.abTest = _
    rw [deployModel_snd]
  | startCanaryDeployment version percent =>
    refine variantsFrom_of_eq ?_
    show (m.startCanaryDeployment version percent).2.abTest = _
    rw [startCanaryDeployment_snd]
  | promoteCanary =>
    refine variantsFrom_of_eq ?_
    show m.promoteCanary.2.abTest = _
    rw [promoteCanary_snd]
  | rollbackDeployment =>
    refine variantsFrom_of_eq ?_
    show m.rollbackDeployment.2.abTest = _
    rw [rollbackDeployment_snd]
  | startAbTest a b percent =>
    refine variantsFrom_of_eq ?_
    show (m.startAbTest a b percent).abTest = _
    rw [startAbTest_of_not h]
  | routeRequest draw => exact routeRequest_variantsFrom m draw
  | getDeploymentStatus => exact variantsFrom_of_eq rfl

/-! ## What the experiments hold -/

/-- The record is the one deployed last under its version. -/
def Latest (tr : List Op) (record : DeploymentVersion) : Prop :=
  lastDeployed tr record.version = some record

/-- The experiments hold the records that were the latest ones when they were started. -/
structure Pinned (tr : List Op) (m : DeploymentManager) : Prop where
  current : ∀ c, m.canary = some c → Latest (canaryStart tr) c.currentVersion
  canary : ∀ c v, m.canary = some c → c.canaryVersion = some v → Latest (canaryStart tr) v
  variants : ∀ t, m.abTest = some t →
    Latest (abTestStart tr) t.variantA ∧ Latest (abTestStart tr) t.variantB

/-- What the registry holds is the latest record of its version. -/
theorem latest_of_get? {tr : List Op} {k : String} {record : DeploymentVersion}
    (h : (run step init tr).deployments.get? k = some record) : Latest tr record := by
  rw [deployments_run] at h
  rw [Latest, (lastDeployed_eq_some h).2]
  exact h

/-- A canary is started from two records of the registry. -/
theorem startCanaryDeployment_of_starts {m : DeploymentManager} {version : String} {percent : ℚ}
    (hm : ∀ k, m.activeDeployment = some k → k ∈ m.deployments.keys)
    (h : startsCanary m (.startCanaryDeployment version percent) = true) :
    ∃ k current canary, m.deployments.get? k = some current ∧
      m.deployments.get? version = some canary ∧
      (m.startCanaryDeployment version percent).2.canary = some (.init current canary percent) := by
  simp only [startsCanary, Bool.and_eq_true] at h
  obtain ⟨k, hk⟩ := Option.isSome_iff_exists.mp h.1
  obtain ⟨canary, hcan⟩ := Option.isSome_iff_exists.mp h.2
  obtain ⟨current, hcur⟩ := Dict.mem_keys_iff.mp (hm k hk)
  refine ⟨k, current, canary, hcur, hcan, ?_⟩
  have hne : m.activeDeployment ≠ none := fun hnone => by rw [hk] at hnone; cases hnone
  unfold startCanaryDeployment
  rw [if_neg hne, activeRecord_eq_ok.mpr ⟨k, hk, hcur⟩, hcan]

/-- An A/B test is started from two records of the registry. -/
theorem startAbTest_of_starts {m : DeploymentManager} {a b : String} {percent : ℚ}
    (h : startsAbTest m (.startAbTest a b percent) = true) :
    ∃ va vb, m.deployments.get? a = some va ∧ m.deployments.get? b = some vb ∧
      (m.startAbTest a b percent).abTest = some (.init va vb percent) := by
  simp only [startsAbTest, Bool.and_eq_true] at h
  obtain ⟨va, ha⟩ := Option.isSome_iff_exists.mp h.1
  obtain ⟨vb, hb⟩ := Option.isSome_iff_exists.mp h.2
  refine ⟨va, vb, ha, hb, ?_⟩
  unfold startAbTest
  rw [ha, hb]

theorem current_step {tr : List Op} (h : Pinned tr (run step init tr)) {op : Op}
    {c' : CanaryDeployment} (hc : (step (run step init tr) op).canary = some c') :
    Latest (canaryStart (tr ++ [op])) c'.currentVersion ∧
      ∀ v, c'.canaryVersion = some v → Latest (canaryStart (tr ++ [op])) v := by
  have hstart := beforeLast_snoc step startsCanary init tr op
  cases hs : startsCanary (run step init tr) op with
  | false =>
    rw [hs, if_neg Bool.false_ne_true] at hstart
    obtain ⟨c, hcan, hcur, hver⟩ := canaryFrom_step hs c' hc
    unfold canaryStart
    rw [hstart, hcur]
    exact ⟨h.current c hcan, fun v hv => h.canary c v hcan (hver v hv)⟩
  | true =>
    rw [hs, if_pos rfl] at hstart
    unfold canaryStart
    rw [hstart]
    cases op with
    | startCanaryDeployment version percent =>
      obtain ⟨k, current, canary, hcur, hcan, hslot⟩ :=
        startCanaryDeployment_of_starts (consistent_run tr).active_key hs
      obtain rfl := Option.some.inj (hslot.symm.trans hc)
      exact ⟨latest_of_get? hcur, fun v hv => Option.some.inj hv ▸ latest_of_get? hcan⟩
    | _ => cases hs

theorem variants_step {tr : List Op} (h : Pinned tr (run step init tr)) {op : Op}
    {t' : ABTestDeployment} (ht : (step (run step init tr) op).abTest = some t') :
    Latest (abTestStart (tr ++ [op])) t'.variantA ∧
      Latest (abTestStart (tr ++ [op])) t'.variantB := by
  have hstart := beforeLast_snoc step startsAbTest init tr op
  cases hs : startsAbTest (run step init tr) op with
  | false =>
    rw [hs, if_neg Bool.false_ne_true] at hstart
    obtain ⟨t, hab, ha, hb⟩ := variantsFrom_step hs t' ht
    unfold abTestStart
    rw [hstart, ha, hb]
    exact h.variants t hab
  | true =>
    rw [hs, if_pos rfl] at hstart
    unfold abTestStart
    rw [hstart]
    cases op with
    | startAbTest a b percent =>
      obtain ⟨va, vb, ha, hb, hslot⟩ := startAbTest_of_starts hs
      obtain rfl := Option.some.inj (hslot.symm.trans ht)
      exact ⟨latest_of_get? ha, latest_of_get? hb⟩
    | _ => cases hs

/-- Every history leaves experiments that are pinned to their starts. -/
theorem pinned_run (tr : List Op) : Pinned tr (run step init tr) := by
  induction tr using List.reverseRecOn with
  | nil =>
    exact ⟨fun _ hc => (by cases hc), fun _ _ hc => (by cases hc), fun _ ht => (by cases ht)⟩
  | append_singleton tr op ih =>
    rw [run_snoc]
    exact ⟨fun _ hc => (current_step ih hc).1, fun _ v hc => (current_step ih hc).2 v,
      fun _ ht => variants_step ih ht⟩

/-! ## Requests -/

/-- The version was not deployed anew between the history `start` and the history `tr`: the record
deployed last under it is the same. -/
def Undisturbed (start tr : List Op) (version : String) : Prop :=
  lastDeployed tr version = lastDeployed start version

/-- The version that an experiment gives a request with this draw was not deployed anew since the
experiment was started. -/
structure NotRedeployed (pre : List Op) (draw : Draw) : Prop where
  canary : ∀ c v, (run step init pre).canary = some c → draw.1 * 100 < c.canaryTrafficPercent →
    c.canaryVersion = some v → Undisturbed (canaryStart pre) pre v.version
  current : ∀ c, (run step init pre).canary = some c → c.canaryTrafficPercent ≤ draw.1 * 100 →
    Undisturbed (canaryStart pre) pre c.currentVersion.version
  variantA : ∀ t, (run step init pre).canary = none → (run step init pre).abTest = some t →
    draw.1 * 100 < t.splitPercent → Undisturbed (abTestStart pre) pre t.variantA.version
  variantB : ∀ t, (run step init pre).canary = none → (run step init pre).abTest = some t →
    t.splitPercent ≤ draw.1 * 100 → Undisturbed (abTestStart pre) pre t.variantB.version

/-- A record that was the latest one is so still exactly when its version is undisturbed. -/
theorem Latest.iff_undisturbed {start tr : List Op} {record : DeploymentVersion}
    (h : Latest start record) : Latest tr record ↔ Undisturbed start tr record.version := by
  unfold Latest Undisturbed at *
  rw [h]

/-- A request gets the latest record of its version. -/
def RoutesLatest (pre : List Op) (draw : Draw) : Prop :=
  ∀ record, ((run step init pre).routeRequest draw).1 = .ok (some record) → Latest pre record

theorem notRedeployed_of_canary {pre : List Op} {c : CanaryDeployment}
    (hc : (run step init pre).canary = some c) (draw : Draw) :
    NotRedeployed pre draw ↔
      (draw.1 * 100 < c.canaryTrafficPercent →
        ∀ v, c.canaryVersion = some v → Undisturbed (canaryStart pre) pre v.version) ∧
      (c.canaryTrafficPercent ≤ draw.1 * 100 →
        Undisturbed (canaryStart pre) pre c.currentVersion.version) := by
  constructor
  · intro h
    exact ⟨fun hlt v hv => h.canary c v hc hlt hv, h.current c hc⟩
  · rintro ⟨hcanary, hcurrent⟩
    refine ⟨fun c' v hc' hlt hv => ?_, fun c' hc' hle => ?_, fun t hnone => ?_, fun t hnone => ?_⟩
    · obtain rfl := Option.some.inj (hc.symm.trans hc')
      exact hcanary hlt v hv
    · obtain rfl := Option.some.inj (hc.symm.trans hc')
      exact hcurrent hle
    · rw [hc] at hnone; cases hnone
    · rw [hc] at hnone; cases hnone

theorem notRedeployed_of_abTest {pre : List Op} {t : ABTestDeployment}
    (hc : (run step init pre).canary = none) (ht : (run step init pre).abTest = some t)
    (draw : Draw) :
    NotRedeployed pre draw ↔
      (draw.1 * 100 < t.splitPercent → Undisturbed (abTestStart pre) pre t.variantA.version) ∧
      (t.splitPercent ≤ draw.1 * 100 →
        Undisturbed (abTestStart pre) pre t.variantB.version) := by
  constructor
  · intro h
    exact ⟨h.variantA t hc ht, h.variantB t hc ht⟩
  · rintro ⟨ha, hb⟩
    refine ⟨fun c v hc' => ?_, fun c hc' => ?_, fun t' _ ht' hlt => ?_, fun t' _ ht' hle => ?_⟩
    · rw [hc] at hc'; cases hc'
    · rw [hc] at hc'; cases hc'
    · obtain rfl := Option.some.inj (ht.symm.trans ht')
      exact ha hlt
    · obtain rfl := Option.some.inj (ht.symm.trans ht')
      exact hb hle

/-- A request answered by a canary. -/
theorem routesLatest_of_canary {pre : List Op} {c : CanaryDeployment}
    (hc : (run step init pre).canary = some c) (draw : Draw) :
    RoutesLatest pre draw ↔ NotRedeployed pre draw := by
  have hpin := pinned_run pre
  rw [notRedeployed_of_canary hc]
  unfold RoutesLatest
  rw [routeRequest_of_canary hc, c.routeRequest_fst]
  by_cases hdraw : draw.1 * 100 < c.canaryTrafficPercent
  · simp only [if_pos hdraw, Except.ok.injEq]
    constructor
    · intro h
      exact ⟨fun _ v hv => (hpin.canary c v hc hv).iff_undisturbed.mp (h v hv),
        fun hle => absurd hdraw (not_lt.mpr hle)⟩
    · intro h record hrecord
      exact (hpin.canary c record hc hrecord).iff_undisturbed.mpr (h.1 hdraw record hrecord)
  · simp only [if_neg hdraw, Except.ok.injEq, Option.some.injEq, forall_eq']
    rw [(hpin.current c hc).iff_undisturbed]
    exact ⟨fun h => ⟨fun hlt => absurd hlt hdraw, fun _ => h⟩, fun h => h.2 (not_lt.mp hdraw)⟩

/-- A request answered by an A/B test. -/
theorem routesLatest_of_abTest {pre : List Op} {t : ABTestDeployment}
    (hc : (run step init pre).canary = none) (ht : (run step init pre).abTest = some t)
    (draw : Draw) : RoutesLatest pre draw ↔ NotRedeployed pre draw := by
  obtain ⟨ha, hb⟩ := (pinned_run pre).variants t ht
  rw [notRedeployed_of_abTest hc ht]
  unfold RoutesLatest
  rw [routeRequest_of_abTest hc ht, t.routeRequest_none_fst]
  simp only [Except.ok.injEq, Option.some.injEq, forall_eq']
  by_cases hdraw : draw.1 * 100 < t.splitPercent
  · rw [if_pos hdraw, ha.iff_undisturbed]
    exact ⟨fun h => ⟨fun _ => h, fun hle => absurd hdraw (not_lt.mpr hle)⟩, fun h => h.1 hdraw⟩
  · rw [if_neg hdraw, hb.iff_undisturbed]
    exact ⟨fun h => ⟨fun hlt => absurd hlt hdraw, fun _ => h⟩, fun h => h.2 (not_lt.mp hdraw)⟩

/-- Without an experiment the record is looked up when the request is routed. -/
theorem routesLatest_of_none {pre : List Op} (hc : (run step init pre).canary = none)
    (ht : (run step init pre).abTest = none) (draw : Draw) :
    RoutesLatest pre draw ∧ NotRedeployed pre draw := by
  constructor
  · intro record hrecord
    rw [routeRequest_of_none hc ht] at hrecord
    cases hactive : (run step init pre).activeRecord with
    | error e =>
      rw [hactive] at hrecord
      cases hrecord
    | ok v =>
      rw [hactive] at hrecord
      obtain rfl : v = record := Option.some.inj (Except.ok.inj hrecord)
      obtain ⟨k, -, hk⟩ := activeRecord_eq_ok.mp hactive
      exact latest_of_get? hk
  · refine ⟨fun c v hc' => ?_, fun c hc' => ?_, fun t _ ht' => ?_, fun t _ ht' => ?_⟩
    · rw [hc] at hc'; cases hc'
    · rw [hc] at hc'; cases hc'
    · rw [ht] at ht'; cases ht'
    · rw [ht] at ht'; cases ht'

theorem routesLatest_iff_notRedeployed (pre : List Op) (draw : Draw) :
    RoutesLatest pre draw ↔ NotRedeployed pre draw := by
  cases hc : (run step init pre).canary with
  | some c => exact routesLatest_of_canary hc draw
  | none =>
    cases ht : (run step init pre).abTest with
    | some t => exact routesLatest_of_abTest hc ht draw
    | none =>
      obtain ⟨hroute, hold⟩ := routesLatest_of_none hc ht draw
      exact iff_of_true hroute hold

/-- **Fresh routing.** Every request of a history that gets a record gets the one deployed last
under its version exactly when no request of it is given a version that was deployed anew since the
experiment that gives it was started. -/
theorem routesLatest_iff (tr : List Op) :
    (∀ pre draw, pre ++ [.routeRequest draw] <+: tr → RoutesLatest pre draw) ↔
      ∀ pre draw, pre ++ [.routeRequest draw] <+: tr → NotRedeployed pre draw :=
  forall₃_congr fun pre draw _ => routesLatest_iff_notRedeployed pre draw

/-- A canary of a version that is deployed again while it runs. -/
def canaryRedeployed (now : Datetime) : List Op :=
  [.deployModel "m1" "v1" "s3://models/v1" now, .deployModel "m1" "v2" "s3://models/v2" now,
    .startCanaryDeployment "v2" 50, .deployModel "m1" "v2" "s3://models/v2-fixed" now]

/-- A request drawn below 0.5 gets the record that was replaced. -/
theorem canaryRedeployed_stale :
    let now : Datetime := ⟨2026, 1, 1, 0, 0, 0, 0⟩
    let tr := canaryRedeployed now
    ((run step init tr).routeRequest ⟨0, by decide⟩).1 =
        .ok (some (deployedRecord "m1" "v2" "s3://models/v2" now)) ∧
      lastDeployed tr "v2" = some (deployedRecord "m1" "v2" "s3://models/v2-fixed" now) ∧
      ¬ ∀ pre draw, pre ++ [.routeRequest draw] <+: tr ++ [.routeRequest ⟨0, by decide⟩] →
        RoutesLatest pre draw := by
  have hroute : ((run step init (canaryRedeployed ⟨2026, 1, 1, 0, 0, 0, 0⟩)).routeRequest
      ⟨0, by decide⟩).1 =
        .ok (some (deployedRecord "m1" "v2" "s3://models/v2" ⟨2026, 1, 1, 0, 0, 0, 0⟩)) := by
    decide +kernel
  refine ⟨hroute, by decide +kernel, fun h => ?_⟩
  have hlatest := h _ _ List.prefix_rfl _ hroute
  revert hlatest
  unfold Latest
  decide +kernel

end DeploymentManager

end PyStreamAI
