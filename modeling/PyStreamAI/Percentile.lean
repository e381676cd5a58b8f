import Mathlib.Data.List.Sort
import Mathlib.Order.Bounds.Basic
import PyStreamAI.Dashboard

/-!
# The 99th percentile

`get_summary` reports the latency at position `int(0.99 * n)` of the sorted list, counted from 0.
The position is always in range, and more than 99 percent of the latencies are at most the one found
there, which is the smallest such (`p99_isLeast`). Where 99 percent are reached exactly, at 100
different latencies for one, the nearest rank is the position before.
-/

open Py Machine

namespace PyStreamAI

/-! ## Ranks in a sorted list -/

section Rank

variable {α : Type*} [LinearOrder α] {l : List α}

theorem lt_countP_of_sorted (hs : l.Pairwise (· ≤ ·)) {k : ℕ} (hk : k < l.length) :
    k < l.countP fun x => x ≤ l[k] := by
  have hall : (l.take (k + 1)).countP (fun x => x ≤ l[k]) = (l.take (k + 1)).length := by
    apply List.countP_eq_length.mpr
    intro x hx
    obtain ⟨i, hi, rfl⟩ := List.mem_iff_getElem.mp hx
    rw [List.length_take] at hi
    rw [List.getElem_take]
    apply decide_eq_true
    rcases Nat.lt_or_ge i k with hik | hik
    · exact List.pairwise_iff_getElem.mp hs i k (by omega) hk hik
    · have hik' : i = k := by omega
      subst hik'
      exact le_refl _
  have hsub := (List.take_sublist (k + 1) l).countP_le (p := fun x => decide (x ≤ l[k]))
  rw [hall, List.length_take] at hsub
  omega

theorem countP_le_of_sorted (hs : l.Pairwise (· ≤ ·)) {k : ℕ} (hk : k < l.length) {y : α}
    (hy : y < l[k]) : (l.countP fun x => x ≤ y) ≤ k := by
  have hnone : (l.drop k).countP (fun x => x ≤ y) = 0 := by
    apply List.countP_eq_zero.mpr
    intro x hx
    obtain ⟨i, hi, rfl⟩ := List.mem_iff_getElem.mp hx
    rw [List.length_drop] at hi
    rw [List.getElem_drop, decide_eq_true_eq, not_le]
    apply lt_of_lt_of_le hy
    rcases Nat.eq_zero_or_pos i with rfl | hpos
    · exact le_refl _
    · exact List.pairwise_iff_getElem.mp hs k (k + i) hk (by omega) (by omega)
  have hsplit : (l.countP fun x => x ≤ y) =
      (l.take k).countP (fun x => x ≤ y) + (l.drop k).countP fun x => x ≤ y := by
    rw [← List.countP_append, List.take_append_drop]
  have htake := (l.take k).countP_le_length (p := fun x => decide (x ≤ y))
  rw [List.length_take] at htake
  omega

end Rank

namespace MetricsCollector

theorem p99Idx_lt {n : ℕ} (hn : n ≠ 0) : n * 99 / 100 < n := by omega

/-- More than 99 percent of the latencies are at most `x`. -/
def CoversP99 (latencies : List ℚ) (x : ℚ) : Prop :=
  99 * latencies.length < 100 * latencies.countP fun y => y ≤ x

theorem coversP99_perm {l l' : List ℚ} (h : l.Perm l') (x : ℚ) :
    CoversP99 l x ↔ CoversP99 l' x := by
  unfold CoversP99
  rw [h.length_eq, h.countP_eq]

theorem isLeast_sorted {l : List ℚ} (hs : l.Pairwise (· ≤ ·)) (hk : l.length * 99 / 100 < l.length) :
    IsLeast {x | x ∈ l ∧ CoversP99 l x} l[l.length * 99 / 100] := by
  constructor
  · refine ⟨List.getElem_mem hk, ?_⟩
    have hcount := lt_countP_of_sorted hs hk
    unfold CoversP99
    omega
  · rintro y ⟨-, hy⟩
    by_contra hlt
    have hcount := countP_le_of_sorted hs hk (not_le.mp hlt)
    unfold CoversP99 at hy
    omega

/-- The 99th percentile is the smallest recorded latency that more than 99 percent of the recorded
latencies do not exceed, and its position is in range. -/
theorem p99_isLeast {c : MetricsCollector} (hne : c.latencies ≠ []) :
    ∃ summary, c.getSummary = some summary ∧
      c.latencies.mergeSort.length * 99 / 100 < c.latencies.mergeSort.length ∧
      IsLeast {x | x ∈ c.latencies ∧ CoversP99 c.latencies x} summary.p99LatencyMs := by
  have hperm : c.latencies.mergeSort.Perm c.latencies := List.mergeSort_perm _ _
  have hlen : c.latencies.mergeSort.length ≠ 0 := by
    rw [hperm.length_eq]
    exact (List.length_pos_iff.mpr hne).ne'
  have hk := p99Idx_lt hlen
  refine ⟨_, if_neg hne, hk, ?_⟩
  dsimp only
  rw [List.getD_eq_getElem?_getD, List.getElem?_eq_getElem hk, Option.getD_some]
  have hleast := isLeast_sorted (List.pairwise_mergeSort' (· ≤ ·) c.latencies) hk
  simpa only [hperm.mem_iff, coversP99_perm hperm] using hleast

theorem p99_isLeast_three :
    let c : MetricsCollector := { latencies := [10, 30, 20] }
    ∃ summary, c.getSummary = some summary ∧
      c.latencies.mergeSort.length * 99 / 100 < c.latencies.mergeSort.length ∧
      IsLeast {x | x ∈ c.latencies ∧ CoversP99 c.latencies x} summary.p99LatencyMs :=
  p99_isLeast (List.cons_ne_nil _ _)

/-- One request for each latency from 1 to 100 ms. -/
def hundredRequests : List Op :=
  (List.range 100).map fun n => .recordRequest "m1" (n + 1 : ℕ) 1 0

/-- Of 100 different latencies the largest is reported, although 99 percent do not exceed the one
before. -/
theorem p99_hundred :
    let c := run step {} hundredRequests
    ∃ summary, c.getSummary = some summary ∧ summary.p99LatencyMs = 100 ∧ 99 ∈ c.latencies ∧
      99 * c.latencies.length ≤ 100 * c.latencies.countP (fun y => y ≤ 99) ∧
      ¬ IsLeast {x | x ∈ c.latencies ∧
        99 * c.latencies.length ≤ 100 * c.latencies.countP fun y => y ≤ x}
          summary.p99LatencyMs := by
  intro c
  have hlat : c.latencies = (List.range 100).map fun n => ((n + 1 : ℕ) : ℚ) := by decide +kernel
  have hmem : 99 ∈ c.latencies := by
    rw [hlat]
    exact List.mem_map.mpr ⟨98, List.mem_range.mpr (by omega), by norm_num⟩
  have hcount : c.latencies.countP (fun y => y ≤ 99) = 99 := by rw [hlat]; decide +kernel
  have hlen : c.latencies.length = 100 := by simp [hlat]
  have hne : c.latencies ≠ [] := List.ne_nil_of_mem hmem
  have hsorted : c.latencies.Pairwise (fun a b => decide (a ≤ b) = true) := by
    rw [hlat, List.pairwise_map]
    exact List.pairwise_lt_range.imp fun hlt => decide_eq_true (by exact_mod_cast Nat.succ_le_succ hlt.le)
  have hp99 : c.latencies.mergeSort.getD (c.latencies.mergeSort.length * 99 / 100) 0 = 100 := by
    rw [List.mergeSort_of_pairwise hsorted, hlat]
    decide +kernel
  have hcover : 99 * c.latencies.length ≤ 100 * c.latencies.countP (fun y => y ≤ 99) := by
    rw [hcount, hlen]
  refine ⟨_, if_neg hne, hp99, hmem, hcover, fun hleast => ?_⟩
  have hle := hleast.2 ⟨hmem, hcover⟩
  dsimp only at hle
  rw [hp99] at hle
  norm_num at hle

end MetricsCollector

end PyStreamAI
