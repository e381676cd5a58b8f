import PyStreamAI.Dashboard
import PyStreamAI.Py.Basic

/-!
# Alerts on the dashboard

The alerts are read off the summary, and before the first recorded request the summary is empty,
whatever was recorded as an error. A high error rate therefore raises its alert exactly when a
request was recorded or no error was (`errorAlert_iff`): a service of which every attempt fails
raises none. Numbers are exact, and printed with ties to even.
-/

open Py Machine

namespace Py

/-- The integer nearest to `n / d`, ties to even. -/
def roundHalfEven (n d : ℕ) : ℕ :=
  if d < 2 * (n % d) ∨ d = 2 * (n % d) ∧ n / d % 2 = 1 then n / d + 1 else n / d

/-- `x` in fixed-point notation, `f"{x:.1f}"` for one digit. -/
def formatFixed (digits : ℕ) (x : ℚ) : String :=
  let n := roundHalfEven (x.num.natAbs * 10 ^ digits) x.den
  (if x < 0 then "-" else "") ++ toString (n / 10 ^ digits) ++
    if digits = 0 then "" else "." ++ decPad digits (n % 10 ^ digits)

end Py

namespace PyStreamAI

structure Alert where
  level : String
  message : String
  deriving DecidableEq

structure Recommendation where
  type : String
  message : String
  deriving DecidableEq

/-- What `get_dashboard_data` returns. -/
structure DashboardData where
  timestamp : String
  summary : Option MetricsSummary
  alerts : List Alert
  recommendations : List Recommendation

/-- Real-time monitoring dashboard. -/
structure Dashboard where
  metrics : MetricsCollector

namespace Dashboard

/-- `summary.get(key, 0)`. -/
def get (summary : Option MetricsSummary) (key : MetricsSummary → ℚ) : ℚ :=
  (summary.map key).getD 0

/-- The alert for a high error rate. -/
def highErrorRate (errorRate : ℚ) : Alert :=
  ⟨"warning", "High error rate: " ++ (formatFixed 1 errorRate ++ "%")⟩

/-- The alert for a high average latency. -/
def highAvgLatency (avg : ℚ) : Alert :=
  ⟨"warning", "High avg latency: " ++ (formatFixed 0 avg ++ "ms")⟩

/-- The alert for a high 99th percentile. -/
def highP99Latency (p99 : ℚ) : Alert :=
  ⟨"warning", "P99 latency high: " ++ (formatFixed 0 p99 ++ "ms")⟩

/-- Generate alerts based on metrics. -/
def generateAlerts (summary : Option MetricsSummary) : List Alert :=
  let errorRate := get summary MetricsSummary.errorRate
  let avg := get summary MetricsSummary.avgLatencyMs
  let p99 := get summary MetricsSummary.p99LatencyMs
  (if 5 < errorRate then [highErrorRate errorRate] else []) ++
    (if 500 < avg then [highAvgLatency avg] else []) ++
    if 1000 < p99 then [highP99Latency p99] else []

/-- Generate recommendations. -/
def generateRecommendations (summary : Option MetricsSummary) : List Recommendation :=
  let totalRequests := (summary.map MetricsSummary.totalRequests).getD 0
  let avg := get summary MetricsSummary.avgLatencyMs
  let maxLat := get summary MetricsSummary.maxLatencyMs
  let models := (summary.map MetricsSummary.models).getD ∅
  let loads := models.entries.map fun e => e.2.requests
  (if get summary MetricsSummary.errorRate < 1 ∧ 100 < totalRequests then
    [⟨"scaling", "Consider increasing batch size for better efficiency"⟩] else []) ++
  (if avg * 3 < maxLat then
    [⟨"optimization", "High latency variance detected - check for resource contention"⟩]
    else []) ++
  if 1 < models.len ∧ loads.min?.getD 0 * 2 < loads.max?.getD 0 then
    [⟨"balancing", "Uneven load across models - consider rebalancing"⟩] else []

/-- Get all dashboard data, at the date `now`. -/
def getDashboardData (d : Dashboard) (now : Datetime) : DashboardData :=
  let summary := d.metrics.getSummary
  { timestamp := now.isoformat
    summary
    alerts := generateAlerts summary
    recommendations := generateRecommendations summary }

/-- The high-error-rate alert is among the data. -/
def HasErrorAlert (data : DashboardData) : Prop :=
  ∃ a ∈ data.alerts, startswith a.message "High error rate: " = true

/-! ## The alert for errors -/

theorem startswith_append (s t : String) : startswith (s ++ t) s = true := by
  rw [startswith_iff, String.toList_append]
  exact List.prefix_append _ _

/-- The messages of the other alerts begin differently. -/
theorem startswith_highAvgLatency (avg : ℚ) :
    startswith (highAvgLatency avg).message "High error rate: " = false := by
  unfold startswith highAvgLatency
  rw [String.toList_append]
  rfl

theorem startswith_highP99Latency (p99 : ℚ) :
    startswith (highP99Latency p99).message "High error rate: " = false := by
  unfold startswith highP99Latency
  rw [String.toList_append]
  rfl

theorem mem_generateAlerts {summary : Option MetricsSummary} {a : Alert} :
    a ∈ generateAlerts summary ↔
      (5 < get summary MetricsSummary.errorRate ∧
        a = highErrorRate (get summary MetricsSummary.errorRate)) ∨
      (500 < get summary MetricsSummary.avgLatencyMs ∧
        a = highAvgLatency (get summary MetricsSummary.avgLatencyMs)) ∨
      (1000 < get summary MetricsSummary.p99LatencyMs ∧
        a = highP99Latency (get summary MetricsSummary.p99LatencyMs)) := by
  unfold generateAlerts
  dsimp only
  rw [List.mem_append, List.mem_append, or_assoc]
  refine or_congr ?_ (or_congr ?_ ?_) <;> split_ifs with h <;> simp [h]

theorem hasErrorAlert_iff (d : Dashboard) (now : Datetime) :
    HasErrorAlert (d.getDashboardData now) ↔
      5 < get d.metrics.getSummary MetricsSummary.errorRate := by
  unfold HasErrorAlert
  constructor
  · rintro ⟨a, ha, hmessage⟩
    rcases mem_generateAlerts.mp ha with ⟨hrate, -⟩ | ⟨-, rfl⟩ | ⟨-, rfl⟩
    · exact hrate
    · rw [startswith_highAvgLatency] at hmessage
      cases hmessage
    · rw [startswith_highP99Latency] at hmessage
      cases hmessage
  · intro hrate
    exact ⟨highErrorRate (get d.metrics.getSummary MetricsSummary.errorRate),
      mem_generateAlerts.mpr (.inl ⟨hrate, rfl⟩), startswith_append _ _⟩

end Dashboard

namespace MetricsCollector

/-- Requests and errors are recorded, and nothing is cleared. -/
def RecordsOnly (tr : List Op) : Prop := ∀ op ∈ tr, op ≠ .clearOldData

theorem cutsNothing_of_recordsOnly {tr : List Op} (h : RecordsOnly tr) :
    Along step CutsNothing {} tr := by
  apply along_iff_forall.mpr
  intro pre op hpre
  have hop : op ≠ .clearOldData :=
    h op (hpre.subset (List.mem_append_right _ List.mem_cons_self))
  cases op with
  | clearOldData => exact absurd rfl hop
  | _ => trivial

/-- The errors are more than 5 percent of the recorded requests. -/
def ErrorsHigh (tr : List Op) : Prop := 5 * (recorded tr).length < 100 * tr.countP Op.isError

instance (tr : List Op) : Decidable (ErrorsHigh tr) := inferInstanceAs (Decidable (_ < _))

theorem errorRate_run {tr : List Op} (h : RecordsOnly tr) :
    Dashboard.get (run step {} tr).getSummary MetricsSummary.errorRate =
      if recorded tr = [] then 0
      else tr.countP Op.isError / ((recorded tr).length : ℚ) * 100 := by
  have htally := tallied_run tr
  have hkept := htally.kept (cutsNothing_of_recordsOnly h)
  unfold Dashboard.get
  split_ifs with hrec
  · rw [getSummary, if_pos (hkept.trans hrec)]
    rfl
  · obtain ⟨summary, hs, -, hrate, -⟩ := getSummary_of_ne_nil (c := run step {} tr) (hkept ▸ hrec)
    rw [hs, ← hkept, ← htally.errors]
    exact hrate

theorem hasErrorAlert_of_recorded {tr : List Op} (h : RecordsOnly tr) (hrec : recorded tr ≠ [])
    (now : Datetime) :
    Dashboard.HasErrorAlert (Dashboard.getDashboardData ⟨run step {} tr⟩ now) ↔ ErrorsHigh tr := by
  have hpos : (0 : ℚ) < (recorded tr).length := by exact_mod_cast List.length_pos_iff.mpr hrec
  have hrate := errorRate_run h
  rw [if_neg hrec] at hrate
  rw [Dashboard.hasErrorAlert_iff]
  dsimp only
  rw [hrate, div_mul_eq_mul_div, lt_div_iff₀ hpos, mul_comm _ (100 : ℚ)]
  unfold ErrorsHigh
  exact_mod_cast Iff.rfl

/-- A high error rate raises its alert exactly when a request was recorded or no error was. -/
theorem errorAlert_iff {tr : List Op} (h : RecordsOnly tr) (now : Datetime) :
    (ErrorsHigh tr →
      Dashboard.HasErrorAlert (Dashboard.getDashboardData ⟨run step {} tr⟩ now)) ↔
    recorded tr ≠ [] ∨ tr.countP Op.isError = 0 := by
  by_cases hrec : recorded tr = []
  · have hrate := errorRate_run h
    rw [if_pos hrec] at hrate
    have hnone : ¬ Dashboard.HasErrorAlert (Dashboard.getDashboardData ⟨run step {} tr⟩ now) := by
      rw [Dashboard.hasErrorAlert_iff]
      dsimp only
      rw [hrate]
      norm_num
    rw [or_iff_right (not_not.mpr hrec)]
    unfold ErrorsHigh
    rw [hrec, List.length_nil]
    constructor
    · intro halert
      by_contra herrors
      exact hnone (halert (by omega))
    · intro herrors hhigh
      omega
  · exact iff_of_true (hasErrorAlert_of_recorded h hrec now).mpr (.inl hrec)

/-- One of two attempts fails. -/
theorem errorAlert_half :
    let tr : List Op := [.recordRequest "m1" 10 1 0, .recordError "boom"]
    Dashboard.HasErrorAlert
      (Dashboard.getDashboardData ⟨run step {} tr⟩ ⟨2026, 1, 1, 0, 0, 0, 0⟩) := by
  intro tr
  have hrecords : RecordsOnly tr := by
    intro op hop
    rcases List.mem_pair.mp hop with rfl | rfl <;> exact Op.noConfusion
  exact (errorAlert_iff hrecords _).mpr (.inl (List.cons_ne_nil _ _)) (by decide)

/-- All of three attempts fail: there is no alert at all, and the summary is empty. -/
theorem errorAlert_outage :
    let tr : List Op := [.recordError "boom", .recordError "boom", .recordError "boom"]
    let data := Dashboard.getDashboardData ⟨run step {} tr⟩ ⟨2026, 1, 1, 0, 0, 0, 0⟩
    ErrorsHigh tr ∧ data.summary = none ∧ data.alerts = [] ∧ ¬ Dashboard.HasErrorAlert data := by
  intro tr data
  have halerts : data.alerts = [] := by decide +kernel
  refine ⟨by decide, rfl, halerts, ?_⟩
  rintro ⟨a, ha, -⟩
  rw [halerts] at ha
  cases ha

end MetricsCollector

end PyStreamAI
