import Mathlib.Algebra.BigOperators.Group.List.Basic
import Mathlib.Data.Rat.Defs
import Mathlib.Algebra.Order.Field.Rat
import PyStreamAI.Py.Basic
import PyStreamAI.Py.Dict

/-!
# Deployments: canary, rollback and A/B routing

`DeploymentManager` routes a request through its canary if it has one, else through its A/B test,
else to the active version. A `CanaryDeployment` loses its canary version by promotion and by
rollback; what is left of it after a rollback still answers requests. Random draws are arguments,
and percentages are compared in exact arithmetic.
-/

open Py

namespace PyStreamAI

/-- Deployment status. -/
inductive DeploymentStatus
  | pending
  | running
  | succeeded
  | failed
  | rolledBack
  deriving DecidableEq, Repr

def DeploymentStatus.value : DeploymentStatus → String
  | .pending => "pending"
  | .running => "running"
  | .succeeded => "succeeded"
  | .failed => "failed"
  | .rolledBack => "rolled_back"

/-- Model version for deployment. -/
structure DeploymentVersion where
  modelId : String
  version : String
  uri : String
  timestamp : Datetime
  status : DeploymentStatus := .pending
  deriving DecidableEq, Repr

/-- A value of `random.random()`. -/
abbrev Draw : Type := {x : ℚ // 0 ≤ x ∧ x < 1}

/-! ## Canary deployments -/

/-- The versions and counters of a canary deployment. `canaryVersion` is `None` once the canary
was promoted or rolled back. -/
structure CanaryDeployment where
  currentVersion : DeploymentVersion
  canaryVersion : Option DeploymentVersion
  canaryTrafficPercent : ℚ
  requestsServed : ℕ
  canaryRequests : ℕ
  deriving DecidableEq

/-- The non-empty result of `get_canary_stats`. -/
structure CanaryStats where
  totalRequests : ℕ
  canaryRequests : ℕ
  canaryTrafficPercent : ℚ
  currentVersion : String
  canaryVersion : String
  deriving DecidableEq

namespace CanaryDeployment

/-- `CanaryDeployment(current_version, canary_version, canary_traffic_percent)`. -/
def init (currentVersion canaryVersion : DeploymentVersion) (canaryTrafficPercent : ℚ) :
    CanaryDeployment :=
  { currentVersion, canaryVersion := some canaryVersion, canaryTrafficPercent,
    requestsServed := 0, canaryRequests := 0 }

/-- Route a request to the current or the canary version; `None` when the canary version drawn
is gone. -/
def routeRequest (c : CanaryDeployment) (draw : Draw) :
    Option DeploymentVersion × CanaryDeployment :=
  let c := { c with requestsServed := c.requestsServed + 1 }
  if draw.1 * 100 < c.canaryTrafficPercent then
    (c.canaryVersion, { c with canaryRequests := c.canaryRequests + 1 })
  else (some c.currentVersion, c)

/-- Canary statistics, empty before any request. -/
def getCanaryStats (c : CanaryDeployment) : Except Error (Option CanaryStats) :=
  if c.requestsServed = 0 then .ok none
  else match c.canaryVersion with
    | none => .error (.noneAttribute "version")
    | some v => .ok (some
        { totalRequests := c.requestsServed
          canaryRequests := c.canaryRequests
          canaryTrafficPercent := (c.canaryRequests / c.requestsServed : ℚ) * 100
          currentVersion := c.currentVersion.version
          canaryVersion := v.version })

/-- Promote the canary to the current version. The log line reads `canary_version.version`
before anything is assigned. -/
def promoteCanary (c : CanaryDeployment) : Res CanaryDeployment Unit :=
  match c.canaryVersion with
  | none => (.error (.noneAttribute "version"), c)
  | some v => (.ok (), { c with currentVersion := v, canaryVersion := none, canaryRequests := 0 })

/-- Roll the canary back, with the same log line first. -/
def rollbackCanary (c : CanaryDeployment) : Res CanaryDeployment Unit :=
  match c.canaryVersion with
  | none => (.error (.noneAttribute "version"), c)
  | some _ => (.ok (), { c with canaryVersion := none, canaryRequests := 0 })

/-- Routing changes the counters only. -/
theorem routeRequest_versions (c : CanaryDeployment) (draw : Draw) :
    (c.routeRequest draw).2.currentVersion = c.currentVersion ∧
      (c.routeRequest draw).2.canaryVersion = c.canaryVersion := by
  unfold routeRequest
  dsimp only
  split_ifs <;> exact ⟨rfl, rfl⟩

/-- A request gets the canary version when the draw falls below the canary's share. -/
theorem routeRequest_fst (c : CanaryDeployment) (draw : Draw) :
    (c.routeRequest draw).1 =
      if draw.1 * 100 < c.canaryTrafficPercent then c.canaryVersion else some c.currentVersion := by
  unfold routeRequest
  dsimp only
  split_ifs <;> rfl

/-- Statistics are there before any request and as long as the canary version is. -/
theorem returns_getCanaryStats (c : CanaryDeployment) :
    Returns c.getCanaryStats ↔ c.requestsServed = 0 ∨ c.canaryVersion ≠ none := by
  unfold getCanaryStats
  split_ifs with h
  · simp [h]
  · cases hv : c.canaryVersion <;> simp [h]

end CanaryDeployment

/-! ## A/B tests -/

/-- The variants, counters and recorded metrics of an A/B test. -/
structure ABTestDeployment where
  variantA : DeploymentVersion
  variantB : DeploymentVersion
  splitPercent : ℚ
  requestsA : ℕ
  requestsB : ℕ
  metricsA : Dict String (List ℚ)
  metricsB : Dict String (List ℚ)
  deriving DecidableEq

/-- One variant's part of `ABTestDeployment.get_stats`. -/
structure VariantStats where
  requests : ℕ
  percent : ℚ
  metrics : Dict String ℚ
  deriving DecidableEq

/-- The result of `ABTestDeployment.get_stats`. -/
structure ABTestStats where
  totalRequests : ℕ
  variantA : VariantStats
  variantB : VariantStats
  deriving DecidableEq

namespace ABTestDeployment

/-- `ABTestDeployment(variant_a, variant_b, split_percent)`. -/
def init (variantA variantB : DeploymentVersion) (splitPercent : ℚ) : ABTestDeployment :=
  { variantA, variantB, splitPercent, requestsA := 0, requestsB := 0, metricsA := ∅, metricsB := ∅ }

/-- Route a request to variant A or B. A non-empty `user_id` enters through its hash only. -/
def routeRequest (t : ABTestDeployment) (userHash : Option ℤ) (draw : Draw) :
    DeploymentVersion × ABTestDeployment :=
  let toA : Bool := match userHash with
    | some h => decide (((h % 100 : ℤ) : ℚ) < t.splitPercent)
    | none => decide (draw.1 * 100 < t.splitPercent)
  if toA then (t.variantA, { t with requestsA := t.requestsA + 1 })
  else (t.variantB, { t with requestsB := t.requestsB + 1 })

/-- Append `value` to the metric's list, which is created on first use. -/
def appendMetric (metrics : Dict String (List ℚ)) (metricName : String) (value : ℚ) :
    Dict String (List ℚ) :=
  metrics.set metricName (metrics.getD metricName [] ++ [value])

/-- Record a metric for variant `"a"`, or for B under any other label. -/
def recordMetric (t : ABTestDeployment) (variant metricName : String) (value : ℚ) :
    ABTestDeployment :=
  if variant = "a" then { t with metricsA := appendMetric t.metricsA metricName value }
  else { t with metricsB := appendMetric t.metricsB metricName value }

/-- Average of each metric, 0 for an empty list. -/
def avgMetrics (metrics : Dict String (List ℚ)) : Dict String ℚ :=
  metrics.mapValues fun values => if values = [] then 0 else values.sum / values.length

/-- A/B test statistics. Both divisions are guarded, so this never raises. -/
def getStats (t : ABTestDeployment) : ABTestStats :=
  let total := t.requestsA + t.requestsB
  let percent (requests : ℕ) : ℚ := if 0 < total then (requests / total : ℚ) * 100 else 0
  { totalRequests := total
    variantA := ⟨t.requestsA, percent t.requestsA, avgMetrics t.metricsA⟩
    variantB := ⟨t.requestsB, percent t.requestsB, avgMetrics t.metricsB⟩ }

/-- A request gets one of the two variants. -/
theorem routeRequest_mem (t : ABTestDeployment) (userHash : Option ℤ) (draw : Draw) :
    (t.routeRequest userHash draw).1 = t.variantA ∨
      (t.routeRequest userHash draw).1 = t.variantB := by
  unfold routeRequest
  dsimp only
  split_ifs
  · exact Or.inl rfl
  · exact Or.inr rfl

theorem routeRequest_none_fst (t : ABTestDeployment) (draw : Draw) :
    (t.routeRequest none draw).1 =
      if draw.1 * 100 < t.splitPercent then t.variantA else t.variantB := by
  unfold routeRequest
  simp only [decide_eq_true_eq]
  split_ifs <;> rfl

/-- Routing changes the counters only. -/
theorem routeRequest_variants (t : ABTestDeployment) (userHash : Option ℤ) (draw : Draw) :
    (t.routeRequest userHash draw).2.variantA = t.variantA ∧
      (t.routeRequest userHash draw).2.variantB = t.variantB := by
  unfold routeRequest
  dsimp only
  split_ifs <;> exact ⟨rfl, rfl⟩

end ABTestDeployment

/-! ## The manager -/

/-- The registry, the active version and the two experiment slots. -/
structure DeploymentManager where
  deployments : Dict String DeploymentVersion
  activeDeployment : Option String
  canary : Option CanaryDeployment
  abTest : Option ABTestDeployment
  deriving DecidableEq

/-- The entry of one version in `get_deployment_status`. -/
structure DeploymentEntry where
  model : String
  status : String
  timestamp : String
  deriving DecidableEq

/-- The result of `get_deployment_status`; the two last keys are present only when the slot is
filled. -/
structure DeploymentStatusReport where
  activeDeployment : Option String
  deployments : Dict String DeploymentEntry
  canary : Option (Option CanaryStats)
  abTest : Option ABTestStats
  deriving DecidableEq

namespace DeploymentManager

/-- `DeploymentManager()`. -/
def init : DeploymentManager :=
  { deployments := ∅, activeDeployment := none, canary := none, abTest := none }

/-- The record `deploy_model` creates. -/
def deployedRecord (modelId version uri : String) (now : Datetime) : DeploymentVersion :=
  { modelId, version, uri, timestamp := now, status := .running }

/-- Deploy a model version; the first one deployed becomes active. -/
def deployModel (m : DeploymentManager) (modelId version uri : String) (now : Datetime) :
    DeploymentVersion × DeploymentManager :=
  let deployment := deployedRecord modelId version uri now
  let m := { m with deployments := m.deployments.set version deployment }
  (deployment,
    if m.activeDeployment = none then { m with activeDeployment := some version } else m)

/-- `self.deployments[self.active_deployment]`. -/
def activeRecord (m : DeploymentManager) : Except Error DeploymentVersion :=
  match m.activeDeployment with
  | none => .error ⟨"KeyError", "None"⟩
  | some version => match m.deployments.get? version with
    | none => .error ⟨"KeyError", pyRepr version⟩
    | some v => .ok v

/-- Start a canary of a deployed version, replacing the canary slot. -/
def startCanaryDeployment (m : DeploymentManager) (canaryVersion : String) (trafficPercent : ℚ) :
    Res DeploymentManager Unit :=
  if m.activeDeployment = none then (.ok (), m)
  else match m.activeRecord with
    | .error e => (.error e, m)
    | .ok current => match m.deployments.get? canaryVersion with
      | none => (.ok (), m)
      | some canary =>
        (.ok (), { m with canary := some (.init current canary trafficPercent) })

/-- Promote the canary to production and empty the slot. -/
def promoteCanary (m : DeploymentManager) : Res DeploymentManager Unit :=
  match m.canary with
  | none => (.ok (), m)
  | some c => match c.promoteCanary with
    | (.error e, c) => (.error e, { m with canary := some c })
    | (.ok (), c) =>
      (.ok (), { m with activeDeployment := some c.currentVersion.version, canary := none })

/-- Roll the canary back. The slot keeps the canary deployment. -/
def rollbackDeployment (m : DeploymentManager) : Res DeploymentManager Unit :=
  match m.canary with
  | none => (.ok (), m)
  | some c =>
    let (r, c) := c.rollbackCanary
    (r, { m with canary := some c })

/-- Start an A/B test between two deployed versions. -/
def startAbTest (m : DeploymentManager) (variantA variantB : String) (splitPercent : ℚ) :
    DeploymentManager :=
  match m.deployments.get? variantA, m.deployments.get? variantB with
  | some a, some b => { m with abTest := some (.init a b splitPercent) }
  | _, _ => m

/-- Route a request: canary first, then A/B test, then the active version. The result may be
`None`. -/
def routeRequest (m : DeploymentManager) (draw : Draw) :
    Res DeploymentManager (Option DeploymentVersion) :=
  match m.canary with
  | some c =>
    let (v, c) := c.routeRequest draw
    (.ok v, { m with canary := some c })
  | none => match m.abTest with
    | some t =>
      let (v, t) := t.routeRequest none draw
      (.ok (some v), { m with abTest := some t })
    | none => (m.activeRecord.map some, m)

/-- Deployment status. -/
def getDeploymentStatus (m : DeploymentManager) : Except Error DeploymentStatusReport :=
  let deployments := m.deployments.mapValues fun dep =>
    { model := dep.modelId, status := dep.status.value, timestamp := dep.timestamp.isoformat }
  let abTest := m.abTest.map ABTestDeployment.getStats
  match m.canary with
  | none => .ok { activeDeployment := m.activeDeployment, deployments, canary := none, abTest }
  | some c => match c.getCanaryStats with
    | .error e => .error e
    | .ok stats =>
      .ok { activeDeployment := m.activeDeployment, deployments, canary := some stats, abTest }

/-! ## What each call does -/

section Calls

variable {m : DeploymentManager} {c : CanaryDeployment} {v : DeploymentVersion}

theorem activeRecord_eq_ok :
    m.activeRecord = .ok v ↔ ∃ k, m.activeDeployment = some k ∧ m.deployments.get? k = some v := by
  unfold activeRecord
  cases m.activeDeployment with
  | none => simp
  | some k => cases h : m.deployments.get? k <;> simp [h]

theorem set_canary_self (h : m.canary = some c) : { m with canary := some c } = m := by
  cases m
  simp_all

theorem deployModel_snd (m : DeploymentManager) (modelId version uri : String) (now : Datetime) :
    (m.deployModel modelId version uri now).2 =
      { m with
        deployments := m.deployments.set version (deployedRecord modelId version uri now)
        activeDeployment := some (m.activeDeployment.getD version) } := by
  unfold deployModel
  dsimp only
  split_ifs with h
  · rw [h]
    rfl
  · obtain ⟨k, hk⟩ := Option.ne_none_iff_exists'.mp h
    rw [hk]
    rfl

theorem startCanaryDeployment_snd (m : DeploymentManager) (version : String) (percent : ℚ) :
    (m.startCanaryDeployment version percent).2 =
      { m with canary := (m.startCanaryDeployment version percent).2.canary } := by
  unfold startCanaryDeployment
  split_ifs
  · rfl
  · cases m.activeRecord with
    | error e => rfl
    | ok current => cases m.deployments.get? version <;> rfl

theorem startAbTest_eq (m : DeploymentManager) (a b : String) (percent : ℚ) :
    m.startAbTest a b percent = { m with abTest := (m.startAbTest a b percent).abTest } := by
  unfold startAbTest
  split <;> rfl

theorem promoteCanary_of_none (h : m.canary = none) : m.promoteCanary = (.ok (), m) := by
  unfold promoteCanary; rw [h]

/-- Promoting what a rollback left behind raises. -/
theorem promoteCanary_of_gone (h : m.canary = some c) (hv : c.canaryVersion = none) :
    m.promoteCanary = (.error (.noneAttribute "version"), m) := by
  have hc : c.promoteCanary = (.error (.noneAttribute "version"), c) := by
    unfold CanaryDeployment.promoteCanary; rw [hv]
  simp only [promoteCanary, h, hc, set_canary_self h]

theorem promoteCanary_of_some (h : m.canary = some c) (hv : c.canaryVersion = some v) :
    m.promoteCanary = (.ok (), { m with activeDeployment := some v.version, canary := none }) := by
  have hc : c.promoteCanary =
      (.ok (), { c with currentVersion := v, canaryVersion := none, canaryRequests := 0 }) := by
    unfold CanaryDeployment.promoteCanary; rw [hv]
  simp only [promoteCanary, h, hc]

theorem rollbackDeployment_of_none (h : m.canary = none) :
    m.rollbackDeployment = (.ok (), m) := by
  unfold rollbackDeployment; rw [h]

/-- Rolling back what a rollback left behind raises. -/
theorem rollbackDeployment_of_gone (h : m.canary = some c) (hv : c.canaryVersion = none) :
    m.rollbackDeployment = (.error (.noneAttribute "version"), m) := by
  have hc : c.rollbackCanary = (.error (.noneAttribute "version"), c) := by
    unfold CanaryDeployment.rollbackCanary; rw [hv]
  simp only [rollbackDeployment, h, hc, set_canary_self h]

theorem rollbackDeployment_of_some (h : m.canary = some c) (hv : c.canaryVersion = some v) :
    m.rollbackDeployment =
      (.ok (), { m with
        canary := some { c with canaryVersion := none, canaryRequests := 0 } }) := by
  have hc : c.rollbackCanary = (.ok (), { c with canaryVersion := none, canaryRequests := 0 }) := by
    unfold CanaryDeployment.rollbackCanary; rw [hv]
  simp only [rollbackDeployment, h, hc]

theorem routeRequest_of_canary (h : m.canary = some c) (draw : Draw) :
    m.routeRequest draw =
      (.ok (c.routeRequest draw).1, { m with canary := some (c.routeRequest draw).2 }) := by
  unfold routeRequest; rw [h]

theorem routeRequest_of_abTest {t : ABTestDeployment} (h : m.canary = none)
    (ht : m.abTest = some t) (draw : Draw) :
    m.routeRequest draw = (.ok (some (t.routeRequest none draw).1),
      { m with abTest := some (t.routeRequest none draw).2 }) := by
  unfold routeRequest; rw [h, ht]

theorem routeRequest_of_none (h : m.canary = none) (ht : m.abTest = none) (draw : Draw) :
    m.routeRequest draw = (m.activeRecord.map some, m) := by
  unfold routeRequest; rw [h, ht]

theorem promoteCanary_snd (m : DeploymentManager) :
    m.promoteCanary.2 =
      { m with
        activeDeployment := m.promoteCanary.2.activeDeployment
        canary := m.promoteCanary.2.canary } := by
  unfold promoteCanary
  split
  · rfl
  · split <;> rfl

theorem rollbackDeployment_snd (m : DeploymentManager) :
    m.rollbackDeployment.2 = { m with canary := m.rollbackDeployment.2.canary } := by
  unfold rollbackDeployment
  split <;> rfl

theorem routeRequest_snd (m : DeploymentManager) (draw : Draw) :
    (m.routeRequest draw).2 =
      { m with
        canary := (m.routeRequest draw).2.canary
        abTest := (m.routeRequest draw).2.abTest } := by
  unfold routeRequest
  split
  · rfl
  · split <;> rfl

theorem canary_routeRequest_of_none (h : m.canary = none) (draw : Draw) :
    (m.routeRequest draw).2.canary = none := by
  cases hab : m.abTest with
  | none =>
    rw [routeRequest_of_none h hab]
    exact h
  | some t =>
    rw [routeRequest_of_abTest h hab]
    exact h

/-- `get_deployment_status` raises exactly when the canary's statistics do. -/
theorem returns_getDeploymentStatus :
    Returns m.getDeploymentStatus ↔ ∀ c, m.canary = some c → Returns c.getCanaryStats := by
  unfold getDeploymentStatus
  cases hc : m.canary with
  | none => simp
  | some c => cases hs : c.getCanaryStats <;> simp [hs]

end Calls

/-! ## Histories of calls -/

/-- One call on a manager, with the clock reading or the random draw it makes. -/
inductive Op
  | deployModel (modelId version uri : String) (now : Datetime)
  | startCanaryDeployment (canaryVersion : String) (trafficPercent : ℚ)
  | promoteCanary
  | rollbackDeployment
  | startAbTest (variantA variantB : String) (splitPercent : ℚ)
  | routeRequest (draw : Draw)
  | getDeploymentStatus
  deriving DecidableEq

/-- The manager after a call, whether or not the call raised. -/
def step (m : DeploymentManager) : Op → DeploymentManager
  | .deployModel modelId version uri now => (m.deployModel modelId version uri now).2
  | .startCanaryDeployment canaryVersion percent =>
    (m.startCanaryDeployment canaryVersion percent).2
  | .promoteCanary => m.promoteCanary.2
  | .rollbackDeployment => m.rollbackDeployment.2
  | .startAbTest variantA variantB percent => m.startAbTest variantA variantB percent
  | .routeRequest draw => (m.routeRequest draw).2
  | .getDeploymentStatus => m

/-- The record a call deploys, if it deploys one. -/
def Op.deployed? : Op → Option DeploymentVersion
  | .deployModel modelId version uri now => some (deployedRecord modelId version uri now)
  | _ => none

/-- The records deployed in a history. -/
def deployed (tr : List Op) : List DeploymentVersion := tr.filterMap Op.deployed?

end DeploymentManager

end PyStreamAI
