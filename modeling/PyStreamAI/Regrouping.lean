import Mathlib.Data.List.Perm.Basic
import PyStreamAI.Machine

/-!
# Regrouping a run

Actions of different keys are `Independent` when they commute and when none sees the other in what
it emits. Two histories with the same actions of each key, in the same order, then end in the same
state (`Independent.run_eq`) and emit the same events up to their order (`Independent.log_perm`).
-/

namespace Machine

variable {σ α ε κ : Type*} [DecidableEq κ]

/-- The histories `tr` and `tr'` have the same actions of each key, in the same order. -/
def Regroups (key : α → κ) (tr tr' : List α) : Prop :=
  ∀ k, tr.filter (fun a => key a = k) = tr'.filter fun a => key a = k

/-- Actions of different keys commute and do not see each other. -/
structure Independent (step : σ → α → σ) (emit : σ → α → List ε) (key : α → κ) : Prop where
  step_comm : ∀ s a b, key a ≠ key b → step (step s a) b = step (step s b) a
  emit_step : ∀ s a b, key a ≠ key b → emit (step s a) b = emit s b

variable {step : σ → α → σ} {emit : σ → α → List ε} {key : α → κ}

namespace Independent

omit [DecidableEq κ] in
theorem run_step (h : Independent step emit key) {a : α} {tr : List α}
    (htr : ∀ b ∈ tr, key b ≠ key a) (s : σ) :
    run step (step s a) tr = step (run step s tr) a := by
  induction tr generalizing s with
  | nil => rfl
  | cons b tr ih =>
    have hb : key b ≠ key a := htr b List.mem_cons_self
    rw [run_cons, run_cons, h.step_comm s a b (Ne.symm hb)]
    exact ih (fun c hc => htr c (List.mem_cons_of_mem b hc)) _

omit [DecidableEq κ] in
theorem log_step (h : Independent step emit key) {a : α} {tr : List α}
    (htr : ∀ b ∈ tr, key b ≠ key a) (s : σ) :
    log step emit (step s a) tr = log step emit s tr := by
  induction tr generalizing s with
  | nil => rfl
  | cons b tr ih =>
    have hb : key b ≠ key a := htr b List.mem_cons_self
    rw [log, log, h.emit_step s a b (Ne.symm hb), h.step_comm s a b (Ne.symm hb)]
    rw [ih (fun c hc => htr c (List.mem_cons_of_mem b hc))]

omit [DecidableEq κ] in
theorem emit_run (h : Independent step emit key) {a : α} {tr : List α}
    (htr : ∀ b ∈ tr, key b ≠ key a) (s : σ) : emit (run step s tr) a = emit s a := by
  induction tr generalizing s with
  | nil => rfl
  | cons b tr ih =>
    have hb : key b ≠ key a := htr b List.mem_cons_self
    rw [run_cons, ih fun c hc => htr c (List.mem_cons_of_mem b hc)]
    exact h.emit_step s b a hb

end Independent

/-- The first action of one history stands in the other behind actions of other keys. -/
theorem Regroups.exists_split {a : α} {tr tr' : List α}
    (h : Regroups key (a :: tr) tr') :
    ∃ u v, tr' = u ++ a :: v ∧ (∀ b ∈ u, key b ≠ key a) ∧ Regroups key tr (u ++ v) := by
  have ha : tr'.filter (fun b => key b = key a) = a :: tr.filter fun b => key b = key a := by
    rw [← h (key a), List.filter_cons_of_pos (by simp)]
  obtain ⟨u, v, rfl, hu, -, hv⟩ := List.filter_eq_cons_iff.mp ha
  have hne : ∀ b ∈ u, key b ≠ key a := fun b hb => by simpa using hu b hb
  refine ⟨u, v, rfl, hne, fun k => ?_⟩
  by_cases hk : key a = k
  · subst hk
    have hnil : u.filter (fun b => key b = key a) = [] := by simpa using hne
    rw [List.filter_append, hnil, List.nil_append, hv]
  · have hrest := h k
    rw [List.filter_cons_of_neg (by simpa using hk), List.filter_append,
      List.filter_cons_of_neg (by simpa using hk)] at hrest
    rw [hrest, List.filter_append]

namespace Independent

/-- The final state does not depend on how the keys are interleaved. -/
theorem run_eq (h : Independent step emit key) {tr tr' : List α} (htr : Regroups key tr tr')
    (s : σ) : run step s tr = run step s tr' := by
  induction tr generalizing s tr' with
  | nil =>
    cases tr' with
    | nil => rfl
    | cons b tr' => simpa using htr (key b)
  | cons a tr ih =>
    obtain ⟨u, v, rfl, hu, hrest⟩ := htr.exists_split
    rw [run_cons, ih hrest, run_append, run_append, run_cons, h.run_step hu]

/-- The events do not depend on how the keys are interleaved, up to their order. -/
theorem log_perm (h : Independent step emit key) {tr tr' : List α} (htr : Regroups key tr tr')
    (s : σ) : (log step emit s tr).Perm (log step emit s tr') := by
  induction tr generalizing s tr' with
  | nil =>
    cases tr' with
    | nil => exact List.Perm.refl _
    | cons b tr' => simpa using htr (key b)
  | cons a tr ih =>
    obtain ⟨u, v, rfl, hu, hrest⟩ := htr.exists_split
    have hsplit : log step emit s (u ++ a :: v) =
        log step emit s u ++ (emit s a ++ log step emit (run step (step s a) u) v) := by
      rw [log_append, log, h.emit_run hu, h.run_step hu]
    have hjoin : log step emit (step s a) (u ++ v) =
        log step emit s u ++ log step emit (run step (step s a) u) v := by
      rw [log_append, h.log_step hu]
    have hhead : (log step emit s (a :: tr)).Perm
        (emit s a ++ (log step emit s u ++ log step emit (run step (step s a) u) v)) := by
      rw [log, ← hjoin]
      exact (ih hrest _).append_left _
    rw [hsplit]
    refine hhead.trans ?_
    rw [← List.append_assoc, ← List.append_assoc]
    exact List.perm_append_comm.append_right _

end Independent

end Machine
