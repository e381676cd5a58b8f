import PyStreamAI.JobIds

/-!
# Decorated functions on the global platform

Functions under `@train`, `@serve` and `@pipeline` work on the platform that is global when they are
called, also when a function they run sets another one. Each platform alone goes as a session does:
what holds across sessions, because it holds across what they consist of, holds across its views
(`view_run`). So the jobs of a platform are those of the calls that began under it, whose ids are
distinct exactly when none of them had another one return while it was running (`platforms_run`).
-/

open Py Machine

namespace PyStreamAI

/-- What remains of the run of decorated functions. -/
inductive Flow (F M D : Type) [FileSystem F]
  /-- Return. -/
  | done (value : Option M)
  /-- Raise. -/
  | throw (e : Exn)
  /-- Change the files, and go on with what was found. -/
  | io (change : F → F) (next : F → Flow F M D)
  /-- Call `get_platform().train` on a callable. -/
  | train (args : TrainArgs) (body : Flow F M D) (next : Except Exn (TrainingJob M) → Flow F M D)
  /-- Call `get_platform().train` on a script. -/
  | script (name repr : String) (program : Program F) (args : TrainArgs)
    (next : Except Exn (TrainingJob M) → Flow F M D)
  /-- Call `get_platform().serve`. -/
  | serve (args : ServeArgs D) (next : Except Exn (Platform.Endpoint D) → Flow F M D)
  /-- Call a function in between. -/
  | call (body : Flow F M D) (next : Except Exn (Option M) → Flow F M D)
  /-- Call `set_platform`. -/
  | setPlatform (backend : String) (next : Except Exn Unit → Flow F M D)

/-- The platforms made so far, by their numbers, with the calls of `train` that returned for each.
The others are new. The global one is the last that was made. -/
structure GlobalPlatform (F M D : Type) where
  platforms : ℕ → Platform M D := fun _ => {}
  logs : ℕ → List (Returned F M) := fun _ => []
  current : ℕ := 0
  files : F

namespace GlobalPlatform

variable {F M D : Type} [FileSystem F]

/-- A platform alone. -/
def view (s : GlobalPlatform F M D) (i : ℕ) : Session F M D where
  platform := s.platforms i
  files := s.files
  log := s.logs i

/-- The platforms after one of them was worked on. -/
def put (s : GlobalPlatform F M D) (i : ℕ) (t : Session F M D) : GlobalPlatform F M D :=
  { s with
    platforms := Function.update s.platforms i t.platform
    logs := Function.update s.logs i t.log
    files := t.files }

/-- Set the global platform backend. -/
def setPlatform (s : GlobalPlatform F M D) (backend : String) :
    Except Exn Unit × GlobalPlatform F M D :=
  if backend = "local" then (.ok (), { s with current := s.current + 1 })
  else (.error (.exception ⟨"NotImplementedError", s!"Platform(backend={pyRepr backend}) is not " ++
    "implemented. Only ('local',) currently does anything -- " ++
    "there is no cloud-provisioning code in this package yet."⟩), s)

/-- Run decorated functions to their end. -/
def exec (s : GlobalPlatform F M D) : Flow F M D → Except Exn (Option M) × GlobalPlatform F M D
  | .done value => (.ok value, s)
  | .throw e => (.error e, s)
  | .io change next => exec { s with files := change s.files } (next s.files)
  | .train args body next =>
    let i := s.current
    let jobId := (s.view i).nextJobId
    let modelId := (s.view i).modelIdFor args.modelId
    let calls := (s.view i).log.length
    match exec s body with
    | (.ok model, s) =>
      let (r, t) := (s.view i).finish (.new jobId modelId model none none) calls none
      exec (s.put i t) (next r)
    | (.error (.exception e), s) =>
      let (r, t) := (s.view i).finish
        (.new jobId modelId none none (some (e.typeName ++ ": " ++ e.text))) calls none
      exec (s.put i t) (next r)
    | (.error (.base e), s) => exec s (next (.error (.base e)))
  | .script name repr program args next =>
    let (r, t) := (s.view s.current).trainScript name repr program args
    exec (s.put s.current t) (next r)
  | .serve args next =>
    let (r, t) := (s.view s.current).serve args
    exec (s.put s.current t) (next r)
  | .call body next =>
    let (r, s) := exec s body
    exec s (next r)
  | .setPlatform backend next =>
    let (r, s) := s.setPlatform backend
    exec s (next r)

/-- The platforms after a call from outside. -/
def step (s : GlobalPlatform F M D) (flow : Flow F M D) : GlobalPlatform F M D := (s.exec flow).2

/-- The package as it is imported. -/
def init (files : F) : GlobalPlatform F M D := { files }

end GlobalPlatform

/-! ## The decorators -/

namespace Decorators

variable {F M D : Type} [FileSystem F]

/-- A call of a function under `@train`. -/
def train (name : String) (modelId gpu timeLimit : Option String) (body : Flow F M D)
    (dataset : String) (next : Except Exn (TrainingJob M) → Flow F M D) : Flow F M D :=
  .train { dataset, gpu, timeLimit, modelId := some (modelId.getD name) } body next

/-- A call of a function under `@serve`, which is the model itself. -/
def serve (name : String) (modelId gpu : Option String) (replicas : ℤ) (fn : D)
    (next : Except Exn (Platform.Endpoint D) → Flow F M D) : Flow F M D :=
  .serve { model := .ok fn, replicas, gpu, modelId := some (modelId.getD name) } next

/-- A call of a function under `@pipeline`. -/
def pipeline (body : Flow F M D) (next : Except Exn (Option M) → Flow F M D) : Flow F M D :=
  .call body next

end Decorators

namespace GlobalPlatform

variable {F M D : Type}

/-! ## Views -/

@[simp] theorem view_put (s : GlobalPlatform F M D) (i : ℕ) (t : Session F M D) :
    (s.put i t).view i = t := by
  simp [view, put]

theorem view_put_of_ne {s : GlobalPlatform F M D} {i j : ℕ} (h : j ≠ i) (t : Session F M D) :
    (s.put i t).view j = { s.view j with files := t.files } := by
  simp [view, put, h]

variable [FileSystem F] {R : Session F M D → Session F M D → Prop}

/-- Work on one platform is work on all views. -/
theorem view_put_cases (h : Session.Composes R) {s s₁ : GlobalPlatform F M D} {i : ℕ}
    {t : Session F M D} (hi : R (s.view i) t) (hother : ∀ j, R (s.view j) (s₁.view j)) (j : ℕ) :
    R (s.view j) ((s₁.put i t).view j) := by
  by_cases hj : j = i
  · subst hj
    rw [view_put]
    exact hi
  · rw [view_put_of_ne hj]
    exact h.trans (hother j) (h.change _ _)

/-- Each platform alone goes as a session does, whatever else goes on. -/
theorem view_exec (h : Session.Composes R) (s : GlobalPlatform F M D) (flow : Flow F M D) :
    ∀ j, R (s.view j) ((s.exec flow).2.view j) := by
  induction flow generalizing s with
  | done value => exact fun j => h.refl _
  | throw e => exact fun j => h.refl _
  | io change next ih =>
    intro j
    have hnext := ih s.files { s with files := change s.files } j
    exact h.trans (h.change (s.view j) (change s.files)) hnext
  | train args body next ihBody ihNext =>
    intro j
    have hbody := ihBody s
    rw [exec]
    rcases hr : s.exec body with ⟨(e | e) | model, s₁⟩ <;> rw [hr] at hbody
    · have hjob := h.finish (s.view s.current |>.modelIdFor args.modelId) none
        (some (e.typeName ++ ": " ++ e.text)) (hbody s.current)
      exact h.trans (view_put_cases h hjob hbody j) (ihNext _ _ j)
    · exact h.trans (hbody j) (ihNext _ _ j)
    · have hjob := h.finish (s.view s.current |>.modelIdFor args.modelId) model none
        (hbody s.current)
      exact h.trans (view_put_cases h hjob hbody j) (ihNext _ _ j)
  | script name repr program args next ih =>
    intro j
    have hscript := h.script (s.view s.current) name repr program args
    exact h.trans (view_put_cases h hscript (fun _ => h.refl _) j) (ih _ _ j)
  | serve args next ih =>
    intro j
    have hserve := h.serve (s.view s.current) args
    exact h.trans (view_put_cases h hserve (fun _ => h.refl _) j) (ih _ _ j)
  | call body next ihBody ihNext =>
    intro j
    exact h.trans (ihBody s j) (ihNext _ _ j)
  | setPlatform backend next ih =>
    intro j
    have hview : (s.setPlatform backend).2.view j = s.view j := by
      unfold setPlatform
      split_ifs <;> rfl
    have hnext := ih (s.setPlatform backend).1 (s.setPlatform backend).2 j
    rw [hview] at hnext
    exact hnext

/-- What holds across the parts of sessions holds across the views of a run. -/
theorem view_run (h : Session.Composes R) (s : GlobalPlatform F M D) (flows : List (Flow F M D))
    (j : ℕ) : R (s.view j) ((run step s flows).view j) :=
  run_invariant (I := fun t : GlobalPlatform F M D => R (s.view j) (t.view j)) (h.refl _)
    (fun t ht flow => h.trans ht (view_exec h t flow j)) flows

/-! ## Jobs -/

/-- The jobs are those of the log, the last one of an id. -/
def Stored (s : Session F M D) : Prop :=
  ∀ id, s.platform.jobs.get? id =
    ((s.log.filter fun e => e.job.jobId = id).getLast?).map Returned.job

omit [FileSystem F] in
theorem Stored.finish {s : Session F M D} (h : Stored s) (job : TrainingJob M) (calls : ℕ)
    (submission : Option (Submission F)) : Stored (s.finish job calls submission).2 := by
  intro id
  unfold Session.finish
  dsimp only
  rw [Dict.get?_set, List.filter_append, h id]
  by_cases hid : job.jobId = id
  · simp [hid]
  · simp [hid, Ne.symm hid]

theorem composes_stored :
    Session.Composes fun s s' : Session F M D => Stored s → Stored s' where
  refl _ h := h
  trans h₁ h₂ h := h₂ (h₁ h)
  change _ _ h := h
  serve s args h := by
    unfold Session.serve
    dsimp only
    split <;> exact h
  script s name repr program args h := by
    rcases s.trainScript_cases name repr program args with
      ⟨-, hlog, hplatform⟩ | ⟨found, run, artifactPath, error, -, -, -, -, heq⟩
    · intro id
      rw [hlog, hplatform]
      exact h id
    · rw [heq]
      exact Stored.finish h _ _ _
  finish _ _ _ h₁ h := (h₁ h).finish _ _ _

theorem grows_view (files : F) (flows : List (Flow F M D)) (i : ℕ) :
    Grows (Session.init files) ((run step (init files) flows).view i)
      ((run step (init files) flows).logs i) := by
  obtain ⟨new, h⟩ := view_run composes_grows (init files) flows i
  have hlog : (run step (init files) flows).logs i = new := h.log_eq
  rw [hlog]
  exact h

/-! ## Platforms that are not global -/

section Replaced

/-- How the platforms go on from `s`: those that were replaced stay, and none is worked on before it
was made. -/
structure Ahead (s s' : GlobalPlatform F M D) : Prop where
  le : s.current ≤ s'.current
  old : ∀ i, i < s.current → s'.platforms i = s.platforms i ∧ s'.logs i = s.logs i
  new : (∀ i, s.current < i → s.platforms i = {} ∧ s.logs i = []) →
    ∀ i, s'.current < i → s'.platforms i = {} ∧ s'.logs i = []

omit [FileSystem F]

theorem Ahead.refl (s : GlobalPlatform F M D) : Ahead s s :=
  ⟨le_rfl, fun _ _ => ⟨rfl, rfl⟩, fun h => h⟩

theorem Ahead.trans {s₁ s₂ s₃ : GlobalPlatform F M D} (h₁ : Ahead s₁ s₂) (h₂ : Ahead s₂ s₃) :
    Ahead s₁ s₃ where
  le := h₁.le.trans h₂.le
  old i hi := by
    obtain ⟨hplatform, hlog⟩ := h₂.old i (hi.trans_le h₁.le)
    rw [hplatform, hlog]
    exact h₁.old i hi
  new h := h₂.new (h₁.new h)

/-- Work on the platform that was global at the start. -/
theorem Ahead.put {s s₁ : GlobalPlatform F M D} (h : Ahead s s₁) (t : Session F M D) :
    Ahead s (s₁.put s.current t) where
  le := h.le
  old i hi := by
    simp only [GlobalPlatform.put, Function.update_of_ne hi.ne]
    exact h.old i hi
  new hnew i hi := by
    have hne : i ≠ s.current := (h.le.trans_lt hi).ne'
    simp only [GlobalPlatform.put, Function.update_of_ne hne]
    exact h.new hnew i hi

theorem ahead_setPlatform (s : GlobalPlatform F M D) (backend : String) :
    Ahead s (s.setPlatform backend).2 := by
  unfold setPlatform
  split_ifs
  · exact ⟨Nat.le_succ _, fun _ _ => ⟨rfl, rfl⟩, fun h i hi => h i (Nat.lt_of_succ_lt hi)⟩
  · exact Ahead.refl s

theorem ahead_exec [FileSystem F] (s : GlobalPlatform F M D) (flow : Flow F M D) :
    Ahead s (s.exec flow).2 := by
  induction flow generalizing s with
  | done value => exact Ahead.refl s
  | throw e => exact Ahead.refl s
  | io change next ih =>
    have hnext := ih s.files { s with files := change s.files }
    exact ⟨hnext.le, hnext.old, hnext.new⟩
  | train args body next ihBody ihNext =>
    have hbody := ihBody s
    rw [exec]
    rcases hr : s.exec body with ⟨(e | e) | model, s₁⟩ <;> rw [hr] at hbody
    · exact (hbody.put _).trans (ihNext _ _)
    · exact hbody.trans (ihNext _ _)
    · exact (hbody.put _).trans (ihNext _ _)
  | script name repr program args next ih => exact ((Ahead.refl s).put _).trans (ih _ _)
  | serve args next ih => exact ((Ahead.refl s).put _).trans (ih _ _)
  | call body next ihBody ihNext => exact (ihBody s).trans (ihNext _ _)
  | setPlatform backend next ih => exact (ahead_setPlatform s backend).trans (ih _ _)

end Replaced

/-- **Platforms.** In every history of decorated functions, scripts and `set_platform`, however the
functions call each other: the jobs of a platform are those of the calls that began while it was
global, the last one of an id. They all have ids of their own, under which they are found, exactly
when no call had another one of its platform return while it was running. What is called after a
platform was replaced, from outside or by a function that is still running, leaves it as it is. -/
theorem platforms_run (files : F) (flows : List (Flow F M D)) (i : ℕ) :
    let s := run step (init files) flows
    (∀ id, (s.platforms i).jobs.get? id =
      ((s.logs i).filter fun e => e.job.jobId = id).getLast?.map Returned.job) ∧
    (((jobIds (s.logs i)).Nodup ∧
        ∀ e ∈ s.logs i, (s.platforms i).jobs.get? e.job.jobId = some e.job) ↔
      ∀ e ∈ s.logs i, e.inner = 0) ∧
    (s.current < i → s.platforms i = {} ∧ s.logs i = []) ∧
    ∀ (t : GlobalPlatform F M D) flow, i < t.current →
      (t.exec flow).2.platforms i = t.platforms i ∧ (t.exec flow).2.logs i = t.logs i := by
  have hgrows := grows_view files flows i
  have hstored : Stored ((run step (init files) flows).view i) :=
    view_run composes_stored (init files) flows i fun id => rfl
  have hahead : Ahead (init files) (run step (init files) flows) :=
    run_invariant (I := fun s : GlobalPlatform F M D => Ahead (init files) s) (Ahead.refl _)
      (fun s hs flow => hs.trans (ahead_exec s flow)) flows
  refine ⟨hstored, ⟨fun h => hgrows.alone h.1, fun hzero => ?_⟩,
    hahead.new (fun _ _ => ⟨rfl, rfl⟩) i, fun t flow hi => (ahead_exec t flow).old i hi⟩
  have hnumbered := hgrows.numbered hzero ⟨rfl, rfl⟩
  exact ⟨hnumbered.nodup, fun e he => hnumbered.get? he⟩

/-- A function that sets another platform for what it trains: both jobs have the id they would have
alone. -/
example :
    let inner : Flow Disk ℕ Unit :=
      Decorators.train "inner" none none none (.done (some 1)) "d.csv" fun _ => .done (some 2)
    let flow : Flow Disk ℕ Unit := Decorators.pipeline
      (Decorators.train "outer" none none none (.setPlatform "local" fun _ => inner) "d.csv"
        fun _ => .done none) fun _ => .done none
    let s := run step (init ⟨[], []⟩) [flow]
    (s.logs 0).map (fun e => (e.job.jobId, e.job.model)) = [("job-0", some 2)] ∧
      (s.logs 1).map (fun e => (e.job.jobId, e.job.model)) = [("job-0", some 1)] := by
  decide +kernel

end GlobalPlatform

end PyStreamAI
