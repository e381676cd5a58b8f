import Mathlib.Tactic.FieldSimp
import Mathlib.Tactic.Linarith
import PyStreamAI.Deployment
import PyStreamAI.Machine

/-!
# Whose metric a value is

`record_metric` gives a value to variant A under the label `"a"` and to B under any other, so the
averages of A are right and those of B include every value with a foreign label, `"variant_a"` of
the reference manual among them. The averages are right for both exactly when, under each name, the
foreign values leave the mean of B's own values as it is (`statsAttributed_iff`).
-/

open Py Machine

namespace PyStreamAI

/-! ## Means -/

/-- The mean of a list, `none` of the empty one. -/
def mean (l : List ℚ) : Option ℚ := if l = [] then none else some (l.sum / l.length)

theorem mean_nil : mean [] = none := if_pos rfl

theorem mean_of_ne_nil {l : List ℚ} (h : l ≠ []) : mean l = some (l.sum / l.length) := if_neg h

theorem mean_perm {l l' : List ℚ} (h : l.Perm l') : mean l = mean l' := by
  by_cases hl : l = []
  · subst hl
    rw [h.nil_eq]
  · have hl' : l' ≠ [] := fun hnil => hl (List.perm_nil.mp (hnil ▸ h))
    rw [mean_of_ne_nil hl, mean_of_ne_nil hl', h.sum_eq, h.length_eq]

/-- More values leave a mean as it is when there are none, or when they have the same mean. -/
theorem mean_append_eq_iff (l l' : List ℚ) :
    mean (l ++ l') = mean l ↔ l' = [] ∨ l ≠ [] ∧ mean l' = mean l := by
  by_cases hl' : l' = []
  · simp [hl']
  · by_cases hl : l = []
    · simp [hl, hl', mean]
    · have hpos : (l.length : ℚ) ≠ 0 := by exact_mod_cast (List.length_pos_iff.mpr hl).ne'
      have hpos' : (l'.length : ℚ) ≠ 0 := by exact_mod_cast (List.length_pos_iff.mpr hl').ne'
      have hsum : (l.length : ℚ) + l'.length ≠ 0 := by
        have hlen := List.length_pos_iff.mpr hl
        exact_mod_cast (by omega : l.length + l'.length ≠ 0)
      rw [mean_of_ne_nil hl, mean_of_ne_nil hl', mean_of_ne_nil (by simp [hl]), or_iff_right hl',
        and_iff_right hl, Option.some_inj, Option.some_inj, List.sum_append, List.length_append,
        Nat.cast_add, div_eq_div_iff hsum hpos, div_eq_div_iff hpos' hpos]
      constructor <;> intro h <;> linarith

/-! ## Recorded values -/

/-- One call of `record_metric`. -/
structure MetricRecord where
  variant : String
  metricName : String
  value : ℚ

/-- The values recorded for a metric under the labels `p` accepts. -/
def recordedValues (p : String → Bool) (metricName : String) (tr : List MetricRecord) : List ℚ :=
  (tr.filter fun r => p r.variant && decide (r.metricName = metricName)).map MetricRecord.value

theorem recordedValues_snoc (p : String → Bool) (metricName : String) (tr : List MetricRecord)
    (r : MetricRecord) :
    recordedValues p metricName (tr ++ [r]) = recordedValues p metricName tr ++
      if p r.variant = true ∧ r.metricName = metricName then [r.value] else [] := by
  unfold recordedValues
  rw [List.filter_append, List.map_append]
  by_cases hp : p r.variant = true <;> by_cases hm : r.metricName = metricName <;> simp [hp, hm]

/-- A list split by labels. -/
theorem recordedValues_perm (p q : String → Bool) (metricName : String) (tr : List MetricRecord) :
    (recordedValues p metricName tr).Perm
      (recordedValues (fun v => p v && q v) metricName tr ++
        recordedValues (fun v => p v && !q v) metricName tr) := by
  unfold recordedValues
  rw [← List.map_append]
  refine List.Perm.map _ ?_
  have hsplit := (List.filter_append_perm (fun r : MetricRecord => q r.variant)
    (tr.filter fun r => p r.variant && decide (r.metricName = metricName))).symm
  rw [List.filter_filter, List.filter_filter] at hsplit
  simpa only [Bool.and_assoc, Bool.and_left_comm] using hsplit

namespace ABTestDeployment

/-- The label of variant A. -/
def isA (variant : String) : Bool := decide (variant = "a")

/-- The label of variant B. -/
def isB (variant : String) : Bool := decide (variant = "b")

/-- Neither. -/
def isForeign (variant : String) : Bool := !isA variant && !isB variant

/-- The test after a call of `record_metric`. -/
def record (t : ABTestDeployment) (r : MetricRecord) : ABTestDeployment :=
  t.recordMetric r.variant r.metricName r.value

/-- A dictionary of lists holds the values `f` under each name, and no empty list. -/
def Holds (metrics : Dict String (List ℚ)) (f : String → List ℚ) : Prop :=
  ∀ name, metrics.get? name = if f name = [] then none else some (f name)

theorem Holds.getD {metrics : Dict String (List ℚ)} {f : String → List ℚ} (h : Holds metrics f)
    (name : String) : metrics.getD name [] = f name := by
  unfold Dict.getD
  rw [h name]
  split_ifs with hnil
  · exact hnil.symm
  · rfl

theorem Holds.appendMetric {metrics : Dict String (List ℚ)} {f g : String → List ℚ}
    (h : Holds metrics f) {metricName : String} {value : ℚ}
    (hg : ∀ name, g name = f name ++ if metricName = name then [value] else []) :
    Holds (appendMetric metrics metricName value) g := by
  intro name
  unfold ABTestDeployment.appendMetric
  rw [Dict.get?_set, h.getD, hg name]
  by_cases hname : name = metricName
  · subst hname
    simp
  · rw [if_neg hname, if_neg (Ne.symm hname), List.append_nil]
    exact h name

theorem Holds.congr {metrics : Dict String (List ℚ)} {f g : String → List ℚ}
    (h : Holds metrics f) (hg : ∀ name, g name = f name) : Holds metrics g := by
  intro name
  rw [hg name]
  exact h name

/-- The averages are the means. -/
theorem Holds.avgMetrics {metrics : Dict String (List ℚ)} {f : String → List ℚ}
    (h : Holds metrics f) (name : String) : (avgMetrics metrics).get? name = mean (f name) := by
  unfold ABTestDeployment.avgMetrics mean
  rw [Dict.get?_mapValues, h name]
  by_cases hnil : f name = [] <;> simp [hnil]

/-- What the two dictionaries hold after a history. -/
theorem holds_run (variantA variantB : DeploymentVersion) (splitPercent : ℚ)
    (tr : List MetricRecord) :
    Holds (run record (init variantA variantB splitPercent) tr).metricsA
        (fun name => recordedValues isA name tr) ∧
      Holds (run record (init variantA variantB splitPercent) tr).metricsB
        (fun name => recordedValues (fun v => !isA v) name tr) := by
  induction tr using List.reverseRecOn with
  | nil => exact ⟨fun _ => rfl, fun _ => rfl⟩
  | append_singleton tr r ih =>
    rw [run_snoc]
    unfold record recordMetric
    by_cases ha : r.variant = "a"
    · have hisA : isA r.variant = true := decide_eq_true ha
      rw [if_pos ha]
      refine ⟨ih.1.appendMetric fun name => ?_, ih.2.congr fun name => ?_⟩
      · simp [recordedValues_snoc, hisA]
      · simp [recordedValues_snoc, hisA]
    · have hisA : isA r.variant = false := decide_eq_false ha
      rw [if_neg ha]
      refine ⟨ih.1.congr fun name => ?_, ih.2.appendMetric fun name => ?_⟩
      · simp [recordedValues_snoc, hisA]
      · simp [recordedValues_snoc, hisA]

/-- Under each name both variants report the mean of the values recorded with their own label. -/
def StatsAttributed (tr : List MetricRecord) (stats : ABTestStats) : Prop :=
  ∀ name, stats.variantA.metrics.get? name = mean (recordedValues isA name tr) ∧
    stats.variantB.metrics.get? name = mean (recordedValues isB name tr)

/-- The values that B holds are its own and the foreign ones. -/
theorem recordedValues_notA_perm (name : String) (tr : List MetricRecord) :
    (recordedValues (fun v => !isA v) name tr).Perm
      (recordedValues isB name tr ++ recordedValues isForeign name tr) := by
  have hown : (fun v => !isA v && isB v) = isB := by
    funext v
    unfold isA isB
    by_cases hv : v = "b"
    · subst hv
      rfl
    · simp [hv]
  have hperm := recordedValues_perm (fun v => !isA v) isB name tr
  rw [hown] at hperm
  exact hperm

/-- The statistics are attributed to the right variants exactly when, under each name, nothing was
recorded with a foreign label or what was has the mean of the values recorded for B. -/
theorem statsAttributed_iff (variantA variantB : DeploymentVersion) (splitPercent : ℚ)
    (tr : List MetricRecord) :
    StatsAttributed tr (run record (init variantA variantB splitPercent) tr).getStats ↔
      ∀ name, recordedValues isForeign name tr = [] ∨
        recordedValues isB name tr ≠ [] ∧
          mean (recordedValues isForeign name tr) = mean (recordedValues isB name tr) := by
  obtain ⟨hA, hB⟩ := holds_run variantA variantB splitPercent tr
  apply forall_congr'
  intro name
  have hmean : mean (recordedValues (fun v => !isA v) name tr) =
      mean (recordedValues isB name tr ++ recordedValues isForeign name tr) :=
    mean_perm (recordedValues_notA_perm name tr)
  refine (and_iff_right (hA.avgMetrics name)).trans ?_
  rw [← mean_append_eq_iff, ← hmean]
  exact Eq.congr_left (hB.avgMetrics name)

/-- The calls of the example in the reference manual. -/
def documentedMetrics : List MetricRecord :=
  [⟨"variant_a", "accuracy", 95 / 100⟩, ⟨"variant_b", "accuracy", 93 / 100⟩]

/-- Both values of the example count for B, whose accuracy is their mean, and A has none. -/
theorem statsAttributed_documented :
    let v : DeploymentVersion := ⟨"m1", "v1", "m1.onnx", ⟨2026, 1, 1, 0, 0, 0, 0⟩, .pending⟩
    let stats := (run record (init v v 70) documentedMetrics).getStats
    stats.variantA.metrics = ∅ ∧ stats.variantB.metrics.get? "accuracy" = some (94 / 100) ∧
      ¬ StatsAttributed documentedMetrics stats := by
  intro v stats
  have hB : stats.variantB.metrics.get? "accuracy" = some (94 / 100) := by decide +kernel
  refine ⟨by decide +kernel, hB, fun hattributed => ?_⟩
  have hown : recordedValues isB "accuracy" documentedMetrics = [] := rfl
  have hmean := (hattributed "accuracy").2
  rw [hB, hown, mean_nil] at hmean
  cases hmean

end ABTestDeployment

end PyStreamAI
