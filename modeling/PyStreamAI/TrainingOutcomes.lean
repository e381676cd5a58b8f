import PyStreamAI.ScriptJobs

/-!
# Outcomes of training

`train` keeps the outcome of its code in three optional values, and the constructor of the job
reads the status back from which of them is set. `Session.outcome` says how training ended apart
from that, and `Made` which job `train` makes of it (`train_made`). The two agree exactly for
the outcomes that are not a callable returning `None` (`Made.settled_iff`), so every job that
`train` returns is settled exactly when its code is not such a callable (`jobsSettled_iff`).
-/

open Py

namespace PyStreamAI

variable {F M D : Type}

/-- How training ended. -/
inductive Outcome (M : Type)
  /-- The callable returned; `none` is `None`. -/
  | returned (model : Option M)
  /-- The script exited with 0 and its `--output` path is there. -/
  | wrote (path : Path)
  /-- The callable raised an `Exception`, or the script did not write its artifact. -/
  | broke

namespace Outcome

/-- The training result. -/
def result : Outcome M → Option (TrainingResult M)
  | returned model => model.map .model
  | wrote path => some (.artifact path)
  | broke => none

end Outcome

/-- How a script run ended, unless `subprocess.run` raised. -/
def ScriptRun.outcome [FileSystem F] (run : ScriptRun F) (candidate : Path) : Option (Outcome M) :=
  match run.exit with
  | .raised _ => none
  | .timedOut => some .broke
  | .exited returncode _ _ =>
    if returncode = 0 ∧ FileSystem.pathExists run.files candidate = true then
      some (.wrote candidate)
    else some .broke

/-- How the training of a call ended, unless the call raises. -/
def Session.outcome [FileSystem F] (s : Session F M D) (args : TrainArgs) :
    Code F M D → Option (Outcome M)
  | .callable body =>
    match (s.exec body).1 with
    | .ok model => some (.returned model)
    | .error (.exception _) => some .broke
    | .error (.base _) => none
  | .file name _ program =>
    let modelId := s.modelIdFor args.modelId
    let candidate := Session.candidatePath modelId
    if FileSystem.isFile s.files (Path.ofString name) then
      match FileSystem.mkdir s.files (Session.artifactDir modelId) with
      | (.error _, _) => none
      | (.ok (), found) =>
        (program.run found args.dataset candidate args.timeLimit).outcome candidate
    else none
  | .other _ => none

/-! ## Jobs -/

namespace TrainingJob

/-- The error of `wait` that should not happen. -/
def noResult (job : TrainingJob M) : Error :=
  ⟨"RuntimeError", s!"Training job {job.jobId} has no result. This should not " ++
    "happen for a job that isn't in 'failed' status -- please report it."⟩

/-- The error of `wait` on a failed job. -/
def failure (job : TrainingJob M) (error : String) : Error :=
  ⟨"RuntimeError", s!"Training job {job.jobId} failed: {error}"⟩

theorem failure_ne_noResult (job : TrainingJob M) (error : String) :
    job.failure error ≠ job.noResult := by
  intro h
  have htext := congrArg (fun e : Error => e.text.toList) h
  have hfailed : toString " failed: " = " failed: " := rfl
  have hno : toString " has no result. This should not " =
      " has no result. This should not " := rfl
  simp [failure, noResult, String.toList_append, hfailed, hno] at htext

theorem new_error (jobId modelId : String) {error : String} (h : error ≠ "") :
    let job : TrainingJob M := .new jobId modelId none none (some error)
    job.status = .failed ∧ job.wait = .error (job.failure error) := by
  have hfilter : (some error).filter (· ≠ "") = some error := by simp [h]
  refine ⟨?_, ?_⟩
  · simp [new, h]
  · simp only [wait, new, hfilter]
    rfl

end TrainingJob

/-- A job says how training ended: it is completed or failed, it is failed when training is,
`wait` raises exactly on a failed job and hands out the training result otherwise, and does not
get to its last error. -/
structure Settled (job : TrainingJob M) (o : Outcome M) : Prop where
  status : job.status = .completed ∨ job.status = .failed
  failed_iff : job.status = .failed ↔ o = .broke
  raises_iff : (∃ e, job.wait = .error e) ↔ job.status = .failed
  result : job.status ≠ .failed → some <$> job.wait = .ok o.result
  reached : job.wait ≠ .error job.noResult

/-- The job that `train` makes of an outcome. -/
inductive Made (jobId modelId : String) : TrainingJob M → Outcome M → Prop
  | returned (model : Option M) :
    Made jobId modelId (.new jobId modelId model none none) (.returned model)
  | wrote (path : Path) :
    Made jobId modelId (.new jobId modelId none (some path) none) (.wrote path)
  | broke {error : String} (h : error ≠ "") :
    Made jobId modelId (.new jobId modelId none none (some error)) .broke

/-- A job is settled unless it is of a callable that returned `None`. -/
theorem Made.settled_iff {jobId modelId : String} {job : TrainingJob M} {o : Outcome M}
    (h : Made jobId modelId job o) : Settled job o ↔ o ≠ .returned none := by
  cases h with
  | returned model =>
    cases model with
    | none =>
      constructor
      · intro h
        exact absurd h.status (by simp [TrainingJob.new])
      · intro h
        exact absurd rfl h
    | some model =>
      refine ⟨fun _ => by simp, fun _ => ⟨.inl rfl, ?_, ?_, fun _ => rfl, ?_⟩⟩
      · simp [TrainingJob.new]
      · simp [TrainingJob.new, TrainingJob.wait]
      · simp [TrainingJob.new, TrainingJob.wait]
  | wrote path =>
    refine ⟨fun _ => by simp, fun _ => ⟨.inl rfl, ?_, ?_, fun _ => rfl, ?_⟩⟩
    · simp [TrainingJob.new]
    · simp [TrainingJob.new, TrainingJob.wait]
    · simp [TrainingJob.new, TrainingJob.wait]
  | broke hne =>
    obtain ⟨hstatus, hwait⟩ := TrainingJob.new_error (M := M) jobId modelId hne
    refine ⟨fun _ => by simp, fun _ => ⟨.inr hstatus, ?_, ?_, ?_, ?_⟩⟩
    · simp [hstatus]
    · simp [hstatus, hwait]
    · exact fun hnot => absurd hstatus hnot
    · intro heq
      rw [hwait] at heq
      exact TrainingJob.failure_ne_noResult _ _ (Except.error.inj heq)

/-! ## Calls -/

variable [FileSystem F]

theorem verdict_made {name : String} {timeLimit : Option String} {candidate : Path}
    {run : ScriptRun F} {artifactPath : Option Path} {error : Option String}
    (h : Session.verdict name timeLimit candidate run = .ok (artifactPath, error))
    (jobId modelId : String) :
    ∃ o : Outcome M, run.outcome candidate = some o ∧
      Made jobId modelId (.new jobId modelId none artifactPath error) o := by
  rcases verdict_cases h with ⟨rfl, rfl, ⟨stdout, stderr, hexit⟩, hexists⟩ |
    ⟨rfl, ⟨message, rfl, hne⟩, hnot⟩
  · refine ⟨.wrote candidate, ?_, .wrote candidate⟩
    simp [ScriptRun.outcome, hexit, hexists]
  · refine ⟨.broke, ?_, .broke hne⟩
    unfold ScriptRun.outcome
    split
    · rename_i e hexit
      rw [Session.verdict, hexit] at h
      cases h
    · rfl
    · rename_i returncode stdout stderr hexit
      rw [if_neg]
      rintro ⟨rfl, hexists⟩
      exact hnot ⟨⟨stdout, stderr, hexit⟩, hexists⟩

theorem trainScript_made {s : Session F M D} {name repr : String} {program : Program F}
    {args : TrainArgs} {job : TrainingJob M}
    (h : (s.trainScript name repr program args).1 = .ok job) :
    ∃ o, s.outcome args (.file name repr program) = some o ∧
      Made s.nextJobId (s.modelIdFor args.modelId) job o := by
  rcases s.trainScript_cases name repr program args with
    ⟨⟨e, he⟩, -⟩ | ⟨found, run, artifactPath, error, hfile, hmkdir, rfl, hv, heq⟩
  · rw [he] at h
    cases h
  · rw [heq] at h
    obtain rfl := Except.ok.inj h
    unfold Session.outcome
    dsimp only
    rw [if_pos hfile, hmkdir]
    exact verdict_made hv _ _

theorem train_made {s : Session F M D} {args : TrainArgs} {code : Code F M D}
    {job : TrainingJob M} (h : (s.train args code).1 = .ok job) :
    ∃ o, s.outcome args code = some o ∧
      Made s.nextJobId (s.modelIdFor args.modelId) job o := by
  cases code with
  | callable body =>
    rw [Session.outcome]
    rcases s.train_callable_cases args body with
      ⟨model, hexec, heq⟩ | ⟨e, hexec, heq⟩ | ⟨e, hexec, heq⟩
    · rw [heq] at h
      obtain rfl := Except.ok.inj h
      rw [hexec]
      exact ⟨.returned model, rfl, .returned model⟩
    · rw [heq] at h
      obtain rfl := Except.ok.inj h
      rw [hexec]
      exact ⟨.broke, rfl, .broke (by simp)⟩
    · rw [heq] at h
      cases h
  | file name repr program =>
    rw [Session.train] at h
    exact trainScript_made h
  | other repr =>
    rw [Session.train] at h
    cases h

theorem train_of_returned {s : Session F M D} {body : Body F M D} {model : Option M}
    (h : (s.exec body).1 = .ok model) (args : TrainArgs) :
    ∃ job, (s.train args (.callable body)).1 = .ok job := by
  rcases s.train_callable_cases args body with ⟨model', -, heq⟩ | ⟨e, hexec, -⟩ | ⟨e, hexec, -⟩
  · exact ⟨_, by rw [heq]; rfl⟩
  · rw [hexec] at h
    cases h
  · rw [hexec] at h
    cases h

theorem outcome_returned_none_iff {s : Session F M D} {args : TrainArgs} {code : Code F M D} :
    s.outcome args code = some (.returned none) ↔
      ∃ body, code = .callable body ∧ (s.exec body).1 = .ok none := by
  cases code with
  | callable body =>
    have hcode : (∃ body', Code.callable body = .callable body' ∧ (s.exec body').1 = .ok none) ↔
        (s.exec body).1 = .ok none := by simp
    rw [hcode, Session.outcome]
    rcases (s.exec body).1 with (e | e) | model
    · simp
    · simp
    · simp
  | file name repr program =>
    have hne : ∀ candidate, ∀ run : ScriptRun F,
        run.outcome candidate ≠ some (Outcome.returned (none : Option M)) := by
      intro candidate run
      unfold ScriptRun.outcome
      split
      · simp
      · simp
      · split_ifs <;> simp
    simp only [Session.outcome, reduceCtorEq, false_and, exists_false, iff_false]
    split
    · split
      · simp
      · exact hne _ _
    · simp
  | other repr => simp [Session.outcome]

/-- **Settled jobs.** Whatever the session, the arguments and the code, the job that `train`
returns is settled, exactly when the code is not a callable that returns `None`. -/
theorem jobsSettled_iff (s : Session F M D) (args : TrainArgs) (code : Code F M D) :
    (∀ job, (s.train args code).1 = .ok job →
        ∃ o, s.outcome args code = some o ∧ Settled job o) ↔
      ¬ ∃ body, code = .callable body ∧ (s.exec body).1 = .ok none := by
  constructor
  · rintro h ⟨body, rfl, hnone⟩
    obtain ⟨job, hjob⟩ := train_of_returned hnone args
    obtain ⟨o, ho, hsettled⟩ := h job hjob
    obtain ⟨o', ho', hmade⟩ := train_made hjob
    rw [ho] at ho'
    obtain rfl := Option.some.inj ho'
    rw [outcome_returned_none_iff.mpr ⟨body, rfl, hnone⟩] at ho
    exact hmade.settled_iff.mp hsettled (Option.some.inj ho).symm
  · intro h job hjob
    obtain ⟨o, ho, hmade⟩ := train_made hjob
    refine ⟨o, ho, hmade.settled_iff.mpr ?_⟩
    rintro rfl
    exact h (outcome_returned_none_iff.mp ho)

/-- The job of a callable that returns `None` is running, and `wait` gets to its last error. -/
theorem returnsNone_running :
    let s : Session Disk ℕ Unit := Session.init ⟨[], []⟩
    let code : Code Disk ℕ Unit := .callable (.done none)
    ∃ job, (s.train { dataset := "d.csv" } code).1 = .ok job ∧ job.status = .running ∧
      job.wait = .error job.noResult ∧
      ∀ o, s.outcome { dataset := "d.csv" } code = some o → ¬ Settled job o := by
  intro s code
  have hjob : (s.train { dataset := "d.csv" } code).1 =
      .ok (.new s.nextJobId (s.modelIdFor none) none none none) := by
    simp [code, Session.train, Session.exec, Session.finish]
  refine ⟨_, hjob, rfl, rfl, fun o _ h => ?_⟩
  exact absurd h.status (by simp [TrainingJob.new])

end PyStreamAI
