import Mathlib.Data.List.Range
import PyStreamAI.Platform

/-!
# Job ids

`train` takes the id of a job from the number of jobs before the training code runs, and stores
the job after it. `Grows` says what a call adds to the log, and holds of every tree of calls
(`composes_grows`). The first call that returns below a call takes that call's id. So the ids of all
returned jobs are distinct, and every job can be found under its id, exactly when no call that
returned had another one return while it was running (`jobIds_iff`).
-/

open Py Machine

namespace PyStreamAI

variable {F M D : Type}

/-- The id of the `n`th job. -/
def numberedJobId (n : ℕ) : String := "job-" ++ toString n

theorem numberedJobId_injective : Function.Injective numberedJobId := fun _ _ h =>
  append_toString_inj h

/-- The ids of the jobs of a log. -/
def jobIds (log : List (Returned F M)) : List String := log.map fun e => e.job.jobId

/-- The jobs are those of the log, in order, and their ids are their numbers. -/
structure Numbered (s : Session F M D) : Prop where
  jobs : s.platform.jobs.entries = s.log.map fun e => (e.job.jobId, e.job)
  ids : jobIds s.log = (List.range s.log.length).map numberedJobId

/-- What holds when a call adds `new` to the log: a call that adds nothing stores nothing, the
first added job has the id that was due, distinct ids mean that no added call had another one
return below it, and if none had, the numbering goes on. -/
structure Grows (s s' : Session F M D) (new : List (Returned F M)) : Prop where
  log_eq : s'.log = s.log ++ new
  idle : new = [] → s'.platform.jobs = s.platform.jobs
  first : ∀ e rest, new = e :: rest → e.job.jobId = s.nextJobId
  alone : (jobIds new).Nodup → ∀ e ∈ new, e.inner = 0
  numbered : (∀ e ∈ new, e.inner = 0) → Numbered s → Numbered s'

theorem Numbered.nextJobId {s : Session F M D} (h : Numbered s) :
    s.nextJobId = numberedJobId s.log.length := by
  unfold Session.nextJobId Dict.len numberedJobId
  rw [h.jobs, List.length_map]

theorem Numbered.nodup {s : Session F M D} (h : Numbered s) : (jobIds s.log).Nodup := by
  rw [h.ids]
  exact List.nodup_range.map numberedJobId_injective

theorem Numbered.get? {s : Session F M D} (h : Numbered s) {e : Returned F M} (he : e ∈ s.log) :
    s.platform.jobs.get? e.job.jobId = some e.job := by
  rw [Dict.get?_eq_some, h.jobs]
  exact List.mem_map.mpr ⟨e, he, rfl⟩

/-- A change that leaves jobs and log alone adds nothing. -/
theorem Grows.of_eq {s s' : Session F M D} (hlog : s'.log = s.log)
    (hjobs : s'.platform.jobs = s.platform.jobs) : Grows s s' [] where
  log_eq := by rw [hlog, List.append_nil]
  idle _ := hjobs
  first e rest h := by cases h
  alone _ e he := by cases he
  numbered _ h := ⟨by rw [hjobs, hlog]; exact h.jobs, by rw [hlog]; exact h.ids⟩

theorem Grows.trans {s s₁ s₂ : Session F M D} {new₁ new₂ : List (Returned F M)}
    (h₁ : Grows s s₁ new₁) (h₂ : Grows s₁ s₂ new₂) : Grows s s₂ (new₁ ++ new₂) where
  log_eq := by rw [h₂.log_eq, h₁.log_eq, List.append_assoc]
  idle h := by
    obtain ⟨h₁nil, h₂nil⟩ := List.append_eq_nil_iff.mp h
    rw [h₂.idle h₂nil, h₁.idle h₁nil]
  first e rest h := by
    cases new₁ with
    | nil =>
      have hid := h₂.first e rest h
      rw [hid]
      unfold Session.nextJobId
      rw [h₁.idle rfl]
    | cons e' rest' =>
      obtain rfl := (List.cons.inj h).1
      exact h₁.first e' rest' rfl
  alone h e he := by
    unfold jobIds at h
    rw [List.map_append] at h
    rcases List.mem_append.mp he with he | he
    · exact h₁.alone (List.nodup_append.mp h).1 e he
    · exact h₂.alone (List.nodup_append.mp h).2.1 e he
  numbered h hs := by
    refine h₂.numbered (fun e he => h e (List.mem_append_right _ he)) ?_
    exact h₁.numbered (fun e he => h e (List.mem_append_left _ he)) hs

/-- A call that returns a job with the id due at its beginning, after `new` was added below it. -/
theorem Grows.finish {s s₁ : Session F M D} {new : List (Returned F M)} (h : Grows s s₁ new)
    {job : TrainingJob M} (hid : job.jobId = s.nextJobId) (sub : Option (Submission F)) :
    Grows s (s₁.finish job s.log.length sub).2 (new ++ [⟨job, new.length, sub⟩]) := by
  have hinner : s₁.log.length - s.log.length = new.length := by
    rw [h.log_eq, List.length_append]
    omega
  refine ⟨?_, fun hnil => ?_, fun e rest he => ?_, fun hnodup e he => ?_, fun hzero hs => ?_⟩
  · show s₁.log ++ [⟨job, s₁.log.length - s.log.length, sub⟩] = _
    rw [hinner, h.log_eq, List.append_assoc]
  · exact absurd (List.append_eq_nil_iff.mp hnil).2 (List.cons_ne_nil _ _)
  · cases new with
    | nil =>
      obtain rfl := (List.cons.inj he).1
      exact hid
    | cons e' rest' =>
      obtain rfl := (List.cons.inj he).1
      exact h.first e' rest' rfl
  · -- a job added below would have the id of this one
    have hnil : new = [] := by
      cases new with
      | nil => rfl
      | cons e' rest' =>
        have hsame : e'.job.jobId = job.jobId := (h.first e' rest' rfl).trans hid.symm
        rw [jobIds, List.map_append, List.nodup_append] at hnodup
        exact absurd hsame (hnodup.2.2 _ (List.mem_map.mpr ⟨e', List.mem_cons_self, rfl⟩) _
          (List.mem_singleton_self _))
    subst hnil
    rw [List.mem_singleton.mp he]
    rfl
  · have hlast := hzero _ (List.mem_append_right _ (List.mem_singleton_self _))
    obtain rfl : new = [] := List.length_eq_zero_iff.mp hlast
    have hs₁ := h.numbered (fun e he => by cases he) hs
    have hlog : s₁.log = s.log := by rw [h.log_eq, List.append_nil]
    have hjobId : job.jobId = numberedJobId s₁.log.length := by rw [hid, hs.nextJobId, hlog]
    refine ⟨?_, ?_⟩
    · show Dict.setItem job.jobId job s₁.platform.jobs.entries = List.map _ (s₁.log ++ [_])
      have hfresh : job.jobId ∉ s₁.platform.jobs.entries.map Prod.fst := by
        have hkeys : s₁.platform.jobs.entries.map Prod.fst = jobIds s₁.log := by
          rw [hs₁.jobs, List.map_map]
          rfl
        rw [hkeys, hs₁.ids, hjobId]
        intro hmem
        obtain ⟨i, hi, heq⟩ := List.mem_map.mp hmem
        rw [List.mem_range] at hi
        have := numberedJobId_injective heq
        omega
      rw [Dict.setItem_of_notMem job hfresh, hs₁.jobs, List.map_append]
      rfl
    · show jobIds (s₁.log ++ [_]) = (List.range (s₁.log ++ [_]).length).map numberedJobId
      rw [List.length_append, List.length_singleton, List.range_succ, List.map_append, ← hs₁.ids,
        jobIds, List.map_append, List.map_singleton, List.map_singleton, hjobId]
      rfl

theorem grows_serve (s : Session F M D) (args : ServeArgs D) : Grows s (s.serve args).2 [] := by
  unfold Session.serve
  dsimp only
  split
  · exact Grows.of_eq rfl rfl
  · exact Grows.of_eq rfl rfl

variable [FileSystem F]

theorem grows_trainScript (s : Session F M D) (name repr : String) (program : Program F)
    (args : TrainArgs) : ∃ new, Grows s (s.trainScript name repr program args).2 new := by
  rcases s.trainScript_cases name repr program args with
    ⟨-, hlog, hplatform⟩ | ⟨found, run, artifactPath, error, -, -, -, -, heq⟩
  · exact ⟨[], Grows.of_eq hlog (by rw [hplatform])⟩
  · rw [heq]
    have hrun : Grows s ({ s with files := run.files } : Session F M D) [] := Grows.of_eq rfl rfl
    exact ⟨_, hrun.finish rfl _⟩

/-- A call grows the session, whatever is called below it. -/
theorem composes_grows :
    Session.Composes fun s s' : Session F M D => ∃ new, Grows s s' new where
  refl _ := ⟨[], Grows.of_eq rfl rfl⟩
  trans := by
    rintro s₁ s₂ s₃ ⟨new₁, h₁⟩ ⟨new₂, h₂⟩
    exact ⟨_, h₁.trans h₂⟩
  change _ _ := ⟨[], Grows.of_eq rfl rfl⟩
  serve s args := ⟨[], grows_serve s args⟩
  script := grows_trainScript
  finish := by
    rintro s s₁ modelId model error ⟨new, h⟩
    exact ⟨_, h.finish rfl none⟩

/-- What a run of calls adds to the log of a new platform is its log. -/
theorem grows_run (files : F) (tr : List (Session.Op F M D)) :
    Grows (Session.init files) (run Session.step (Session.init files) tr)
      (run Session.step (Session.init files) tr).log := by
  have hnew : ∃ new, Grows (Session.init files) (run Session.step (Session.init files) tr) new := by
    refine run_invariant (I := fun s : Session F M D => ∃ new, Grows (Session.init files) s new)
      ⟨[], Grows.of_eq rfl rfl⟩ ?_ tr
    rintro s ⟨new, h⟩ op
    obtain ⟨new', h'⟩ := composes_grows.step s op
    exact ⟨_, h.trans h'⟩
  obtain ⟨new, h⟩ := hnew
  have hlog : (run Session.step (Session.init files) tr).log = new := h.log_eq
  rw [hlog]
  exact h

/-- **Job ids.** The jobs that the calls of `train` returned, nested ones included, have distinct
ids and are found under them, exactly when no call that returned had another one return while it
was running. -/
theorem jobIds_iff (files : F) (tr : List (Session.Op F M D)) :
    ((jobIds (run Session.step (Session.init files) tr).log).Nodup ∧
        ∀ e ∈ (run Session.step (Session.init files) tr).log,
          (run Session.step (Session.init files) tr).platform.jobs.get? e.job.jobId = some e.job) ↔
      ∀ e ∈ (run Session.step (Session.init files) tr).log, e.inner = 0 := by
  have h := grows_run files tr
  constructor
  · exact fun hdistinct => h.alone hdistinct.1
  · intro hzero
    have hnumbered := h.numbered hzero ⟨rfl, rfl⟩
    exact ⟨hnumbered.nodup, fun e he => hnumbered.get? he⟩

/-- A call of a function under `@train`: `Platform.train` on the function, with the decorator's
`model_id` or the name of the function. -/
def decorated (name : String) (modelId : Option String) (body : Body F M D) (dataset : String)
    (next : Except Exn (TrainingJob M) → Body F M D) : Body F M D :=
  .train (.callable body) { dataset, modelId := some (modelId.getD name) } next

/-- A training function that trains with another one first. -/
def pipeline : Body Disk ℕ Unit :=
  decorated "prepare" none (.done (some 1)) "raw.csv" fun _ => .done (some 2)

/-- The two jobs of a pipeline share an id, under which only the outer one is found. -/
theorem pipeline_shares_id :
    let s : Session Disk ℕ Unit :=
      run Session.step (Session.init ⟨[], []⟩) [.train (.callable pipeline) { dataset := "d.csv" }]
    (s.log.map fun e => (e.job.jobId, e.job.model)) =
        [("job-0", some 1), ("job-0", some 2)] ∧
      (s.platform.jobs.get? "job-0").map TrainingJob.model = some (some 2) ∧
      ¬ (jobIds s.log).Nodup := by
  refine ⟨by decide +kernel, by decide +kernel, by decide +kernel⟩

end PyStreamAI
