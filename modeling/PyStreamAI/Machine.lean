import Mathlib.Algebra.BigOperators.Fin
import Mathlib.Data.List.Infix

/-!
# Runs of a transition function

`run step s tr` is the state after the actions `tr`. An invariant of one step is an invariant of
every run (`run_invariant`), also when it mentions the history (`run_history`). `Along` says that
every step of a run is taken from a state where it is allowed: what allowed steps keep holds of such
a run (`Along.history`), and `forall_prefix_iff_along_of` turns an equivalence about one step into
one about whole runs. `beforeLast` is the history before the last marked action, and `log` collects
what the steps emit. `follows` relates the runs of two systems, of which one takes some
actions for each of the other.
`sum_update` is the bookkeeping of a pool of tasks of which one moves.
-/

namespace Machine

variable {σ α ε : Type*} (step : σ → α → σ)

/-- The state after the actions `tr`. -/
def run (s : σ) (tr : List α) : σ := tr.foldl step s

@[simp] theorem run_nil (s : σ) : run step s [] = s := rfl

@[simp] theorem run_cons (s : σ) (a : α) (tr : List α) :
    run step s (a :: tr) = run step (step s a) tr := rfl

theorem run_append (s : σ) (tr tr' : List α) :
    run step s (tr ++ tr') = run step (run step s tr) tr' := List.foldl_append

@[simp] theorem run_snoc (s : σ) (tr : List α) (a : α) :
    run step s (tr ++ [a]) = step (run step s tr) a := by rw [run_append]; rfl

variable {step}

/-- A property of histories and states that one step extends holds of every run. -/
theorem run_history {P : List α → σ → Prop} {s₀ : σ} (h0 : P [] s₀)
    (hstep : ∀ tr s, P tr s → ∀ a, P (tr ++ [a]) (step s a)) (tr : List α) :
    P tr (run step s₀ tr) := by
  induction tr using List.reverseRecOn with
  | nil => exact h0
  | append_singleton tr a ih =>
    rw [run_snoc]
    exact hstep tr _ ih a

/-- An invariant of one step is an invariant of every run. -/
theorem run_invariant {I : σ → Prop} {s₀ : σ} (h0 : I s₀) (hstep : ∀ s, I s → ∀ a, I (step s a))
    (tr : List α) : I (run step s₀ tr) :=
  run_history (P := fun _ s => I s) h0 (fun _ s hs a => hstep s hs a) tr

/-! ## Runs whose steps are all allowed -/

/-- Every action of the run is taken from a state where `C` allows it. -/
def Along (step : σ → α → σ) (C : σ → α → Prop) : σ → List α → Prop
  | _, [] => True
  | s, a :: tr => C s a ∧ Along step C (step s a) tr

variable {C : σ → α → Prop}

instance decidableAlong [∀ s a, Decidable (C s a)] : ∀ s tr, Decidable (Along step C s tr)
  | _, [] => isTrue trivial
  | s, a :: tr =>
    have := decidableAlong (step s a) tr
    inferInstanceAs (Decidable (C s a ∧ Along step C (step s a) tr))

@[simp] theorem along_nil (s : σ) : Along step C s [] := trivial

theorem along_append {s : σ} {tr tr' : List α} :
    Along step C s (tr ++ tr') ↔ Along step C s tr ∧ Along step C (run step s tr) tr' := by
  induction tr generalizing s with
  | nil => simp
  | cons a tr ih => simp only [List.cons_append, Along, run_cons, ih, and_assoc]

theorem along_snoc {s : σ} {tr : List α} {a : α} :
    Along step C s (tr ++ [a]) ↔ Along step C s tr ∧ C (run step s tr) a := by
  rw [along_append]
  simp [Along]

/-- The step at any position of an allowed run is allowed. -/
theorem Along.at {s : σ} {pre post : List α} {a : α} (h : Along step C s (pre ++ a :: post)) :
    C (run step s pre) a := (along_append.mp h).2.1

/-- A run is allowed when each of its steps is. -/
theorem along_iff_forall {s : σ} {tr : List α} :
    Along step C s tr ↔ ∀ pre a, pre ++ [a] <+: tr → C (run step s pre) a := by
  constructor
  · rintro h pre a ⟨post, rfl⟩
    rw [List.append_assoc] at h
    exact h.at
  · intro h
    induction tr using List.reverseRecOn with
    | nil => trivial
    | append_singleton tr a ih =>
      exact along_snoc.mpr ⟨ih fun pre b hpre => h pre b (hpre.trans (List.prefix_append tr [a])),
        h tr a List.prefix_rfl⟩

/-- A condition on the actions alone. -/
theorem along_const_iff {Q : α → Prop} {s : σ} {tr : List α} :
    Along step (fun _ a => Q a) s tr ↔ ∀ a ∈ tr, Q a := by
  induction tr generalizing s with
  | nil => simp
  | cons a tr ih => rw [Along, ih, List.forall_mem_cons]

theorem along_of_forall {Q : α → Prop} {s : σ} {tr : List α} (h : ∀ a ∈ tr, Q a) :
    Along step (fun _ a => Q a) s tr := along_const_iff.mpr h

/-- A property of histories and states that allowed steps extend holds of every allowed run. -/
theorem Along.history {P : List α → σ → Prop} {s₀ : σ} (h0 : P [] s₀)
    (hstep : ∀ tr a, P tr (run step s₀ tr) → C (run step s₀ tr) a →
      P (tr ++ [a]) (step (run step s₀ tr) a)) {tr : List α} (h : Along step C s₀ tr) :
    P tr (run step s₀ tr) := by
  induction tr using List.reverseRecOn with
  | nil => exact h0
  | append_singleton tr a ih =>
    obtain ⟨htr, ha⟩ := along_snoc.mp h
    rw [run_snoc]
    exact hstep tr a (ih htr) ha

/-- Two conditions that agree where an invariant holds, which allowed steps keep, allow the same
runs. -/
theorem along_congr {D : σ → α → Prop} {I : σ → Prop} (h : ∀ s a, I s → (C s a ↔ D s a))
    (hkeep : ∀ s a, I s → C s a → I (step s a)) {s : σ} (hs : I s) {tr : List α} :
    Along step C s tr ↔ Along step D s tr := by
  induction tr generalizing s with
  | nil => exact Iff.rfl
  | cons a tr ih =>
    unfold Along
    rw [← h s a hs]
    exact and_congr_right fun ha => ih (hkeep s a hs ha)

/-- When a good history stays good exactly under the allowed actions, the histories that are good
throughout are exactly those whose steps are all allowed. The equivalence is asked of the steps of
the run alone, after allowed ones. -/
theorem forall_prefix_iff_along_of {I : List α → Prop} {s₀ : σ} (h0 : I []) (tr : List α)
    (hstep : ∀ pre a, pre ++ [a] <+: tr → Along step C s₀ pre → I pre →
      (C (run step s₀ pre) a ↔ I (pre ++ [a]))) :
    (∀ pre, pre <+: tr → I pre) ↔ Along step C s₀ tr := by
  induction tr using List.reverseRecOn with
  | nil =>
    refine ⟨fun _ => trivial, fun _ pre hpre => ?_⟩
    rw [List.prefix_nil.mp hpre]
    exact h0
  | append_singleton tr a ih =>
    have hinit : tr <+: tr ++ [a] := List.prefix_append tr [a]
    rw [along_snoc, ← ih fun pre b hpre => hstep pre b (hpre.trans hinit)]
    constructor
    · intro h
      have htr : ∀ pre, pre <+: tr → I pre := fun pre hpre => h pre (hpre.trans hinit)
      have halong := (ih fun pre b hpre => hstep pre b (hpre.trans hinit)).mp htr
      exact ⟨htr, (hstep tr a List.prefix_rfl halong (htr tr List.prefix_rfl)).mpr
        (h _ List.prefix_rfl)⟩
    · rintro ⟨h, ha⟩ pre hpre
      have halong := (ih fun pre b hpre => hstep pre b (hpre.trans hinit)).mp h
      rcases List.prefix_concat_iff.mp hpre with rfl | hpre
      · exact (hstep tr a List.prefix_rfl halong (h tr List.prefix_rfl)).mp ha
      · exact h pre hpre

theorem forall_prefix_iff_along {I : List α → Prop} {s₀ : σ} (h0 : I [])
    (hstep : ∀ tr, I tr → ∀ a, C (run step s₀ tr) a ↔ I (tr ++ [a])) (tr : List α) :
    (∀ pre, pre <+: tr → I pre) ↔ Along step C s₀ tr :=
  forall_prefix_iff_along_of h0 tr fun pre a _ _ h => hstep pre h a

/-! ## The history before the last marked action -/

section Marked

variable (step) (mark : σ → α → Bool) (s : σ)

/-- `beforeLast` on the reversed history. -/
def beforeLastRev : List α → List α
  | [] => []
  | a :: rev => if mark (run step s rev.reverse) a then rev.reverse else beforeLastRev rev

/-- The history before the last action that `mark` accepts in the state it is taken from, empty
if there is none. -/
def beforeLast (tr : List α) : List α := beforeLastRev step mark s tr.reverse

theorem beforeLast_snoc (tr : List α) (a : α) :
    beforeLast step mark s (tr ++ [a]) =
      if mark (run step s tr) a then tr else beforeLast step mark s tr := by
  unfold beforeLast
  rw [List.reverse_append, List.reverse_singleton, List.singleton_append, beforeLastRev,
    List.reverse_reverse]

end Marked

/-! ## What a run emits -/

/-- The events of a run: each step emits the events `emit` reads off its state and action. -/
def log (step : σ → α → σ) (emit : σ → α → List ε) : σ → List α → List ε
  | _, [] => []
  | s, a :: tr => emit s a ++ log step emit (step s a) tr

variable {emit : σ → α → List ε}

@[simp] theorem log_nil (s : σ) : log step emit s [] = [] := rfl

theorem log_append (s : σ) (tr tr' : List α) :
    log step emit s (tr ++ tr') = log step emit s tr ++ log step emit (run step s tr) tr' := by
  induction tr generalizing s with
  | nil => rfl
  | cons b tr ih => rw [List.cons_append, log, ih, run_cons, log, List.append_assoc]

@[simp] theorem log_snoc (s : σ) (tr : List α) (a : α) :
    log step emit s (tr ++ [a]) = log step emit s tr ++ emit (run step s tr) a := by
  rw [log_append, log, log_nil, List.append_nil]

theorem map_log {δ : Type*} (f : ε → δ) (s : σ) (tr : List α) :
    (log step emit s tr).map f = log step (fun s a => (emit s a).map f) s tr := by
  induction tr generalizing s with
  | nil => rfl
  | cons a tr ih => rw [log, log, List.map_append, ih]

/-- A property of what was emitted so far and of the state that one step keeps holds of every
run. -/
theorem run_log {P : List ε → σ → Prop} {s₀ : σ} (h0 : P [] s₀)
    (hstep : ∀ evs s, P evs s → ∀ a, P (evs ++ emit s a) (step s a)) (tr : List α) :
    P (log step emit s₀ tr) (run step s₀ tr) := by
  induction tr using List.reverseRecOn with
  | nil => exact h0
  | append_singleton tr a ih =>
    rw [log_snoc, run_snoc]
    exact hstep _ _ ih a

/-- An event of a run was emitted by one of its steps. -/
theorem exists_of_mem_log {s : σ} {tr : List α} {e : ε} (h : e ∈ log step emit s tr) :
    ∃ pre a, pre ++ [a] <+: tr ∧ e ∈ emit (run step s pre) a := by
  induction tr using List.reverseRecOn with
  | nil => cases h
  | append_singleton tr a ih =>
    rw [log_snoc] at h
    rcases List.mem_append.mp h with h | h
    · obtain ⟨pre, b, hpre, hb⟩ := ih h
      exact ⟨pre, b, hpre.trans (List.prefix_append tr [a]), hb⟩
    · exact ⟨tr, a, List.prefix_rfl, h⟩

/-! ## Simulation -/

/-- One system follows another: for each action of the other it takes the actions that `follow`
picks. While related states emit the same and are related again, the two runs emit the same. -/
theorem follows {τ β : Type*} {step' : τ → β → τ} {emit' : τ → β → List ε}
    {follow : σ → α → List β} {R : σ → τ → Prop} {s₀ : σ} {t₀ : τ} (h0 : R s₀ t₀)
    (hstep : ∀ s t, R s t → ∀ a, emit s a = log step' emit' t (follow s a) ∧
      R (step s a) (run step' t (follow s a))) (tr : List α) :
    log step emit s₀ tr = log step' emit' t₀ (log step follow s₀ tr) ∧
      R (run step s₀ tr) (run step' t₀ (log step follow s₀ tr)) := by
  induction tr using List.reverseRecOn with
  | nil => exact ⟨rfl, h0⟩
  | append_singleton tr a ih =>
    obtain ⟨hlog, hR⟩ := ih
    obtain ⟨hemit, hnext⟩ := hstep _ _ hR a
    rw [log_snoc, log_snoc, log_append, run_snoc, run_append, hlog, hemit]
    exact ⟨rfl, hnext⟩

theorem log_singleton (s : σ) (tr : List α) : log step (fun _ a => [a]) s tr = tr := by
  induction tr generalizing s with
  | nil => rfl
  | cons a tr ih => rw [log, ih, List.singleton_append]

/-- Two systems in lockstep: while related states emit the same and a step keeps them related, the
two runs emit the same. -/
theorem simulation {τ : Type*} {step' : τ → α → τ} {emit' : τ → α → List ε} {R : σ → τ → Prop}
    {s₀ : σ} {t₀ : τ} (h0 : R s₀ t₀)
    (hstep : ∀ s t, R s t → ∀ a, emit s a = emit' t a ∧ R (step s a) (step' t a)) (tr : List α) :
    log step emit s₀ tr = log step' emit' t₀ tr ∧ R (run step s₀ tr) (run step' t₀ tr) := by
  have hone : ∀ s t, R s t → ∀ a, emit s a = log step' emit' t [a] ∧
      R (step s a) (run step' t [a]) := by
    intro s t hR a
    rw [log, log_nil, List.append_nil]
    exact hstep s t hR a
  have h := follows h0 hone tr
  rw [log_singleton] at h
  exact h

/-- Steps that leave every state as it is can be left out. -/
theorem log_filter {p : α → Bool} (hp : ∀ s a, p a = false → step s a = s) (s : σ) (tr : List α) :
    log step (fun s a => if p a then emit s a else []) s tr = log step emit s (tr.filter p) := by
  induction tr generalizing s with
  | nil => rfl
  | cons a tr ih =>
    rw [log, List.filter_cons]
    cases hpa : p a with
    | true => rw [if_pos rfl, if_pos rfl, log, ih]
    | false => rw [if_neg Bool.false_ne_true, if_neg Bool.false_ne_true, hp s a hpa, ih,
        List.nil_append]

/-! ## Pools -/

/-- A sum over a pool when one member changes. -/
theorem sum_update {ι β : Type*} [Fintype ι] [DecidableEq ι] (f : ι → β → ℕ) (g : ι → β) (i : ι)
    (b : β) :
    ∑ j, f j (Function.update g i b j) + f i (g i) = ∑ j, f j (g j) + f i b := by
  have hrest : ∑ j ∈ Finset.univ.erase i, f j (Function.update g i b j) =
      ∑ j ∈ Finset.univ.erase i, f j (g j) :=
    Finset.sum_congr rfl fun j hj => by rw [Function.update_of_ne (Finset.ne_of_mem_erase hj)]
  rw [← Finset.add_sum_erase _ _ (Finset.mem_univ i),
    ← Finset.add_sum_erase _ (fun j => f j (g j)) (Finset.mem_univ i), hrest, Function.update_self]
  omega

end Machine
