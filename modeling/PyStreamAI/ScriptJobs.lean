import PyStreamAI.Platform

/-!
# Script jobs and their artifacts

Every logged script run carries the verdict of `train` on it, also below other calls
(`sound_run`). From it: a completed job reports an artifact of its own run exactly when the run
did not just find it there (`reportsOwn_iff`), and completed jobs with default names keep their
artifacts exactly as long as deployments are added between them (`keepsArtifacts_iff`).
-/

open Py Machine

namespace PyStreamAI

variable {F M D : Type} [FileSystem F]

/-! ## Verdicts -/

/-- The script exited with code 0. -/
def ScriptRun.Succeeded (run : ScriptRun F) : Prop :=
  ∃ stdout stderr, run.exit = .exited 0 stdout stderr

/-- The script created or rewrote `p`. -/
def ScriptRun.Produced (run : ScriptRun F) (p : Path) : Prop :=
  p ∈ run.touched ∧ FileSystem.pathExists run.files p = true

/-- What `train` logs of a script run: the job with the verdict on it, the `--output` path the
job was given, and that the run was one of a program. -/
structure Submission.Sound (job : TrainingJob M) (sub : Submission F) : Prop where
  judged : ∃ jobId modelId name timeLimit artifactPath error,
    Session.verdict name timeLimit sub.output sub.run = .ok (artifactPath, error) ∧
      job = .new jobId modelId none artifactPath error
  output_eq : sub.output =
    Session.candidatePath (sub.modelId.getD (Session.defaultModelId sub.deployments))
  untouched : ∀ p, p ∉ sub.run.touched →
    FileSystem.pathExists sub.run.files p = FileSystem.pathExists sub.found p

/-- The two ways a verdict can go. -/
theorem verdict_cases {name : String} {timeLimit : Option String} {candidate : Path}
    {run : ScriptRun F} {artifactPath : Option Path} {error : Option String}
    (h : Session.verdict name timeLimit candidate run = .ok (artifactPath, error)) :
    (artifactPath = some candidate ∧ error = none ∧ run.Succeeded ∧
        FileSystem.pathExists run.files candidate = true) ∨
      (artifactPath = none ∧ (∃ message, error = some message ∧ message ≠ "") ∧
        ¬ (run.Succeeded ∧ FileSystem.pathExists run.files candidate = true)) := by
  have hstart : toString "training script " ≠ "" := by decide
  unfold Session.verdict at h
  split at h
  · cases h
  · rename_i hexit
    cases h
    refine Or.inr ⟨rfl, ⟨_, rfl, by simp [hstart]⟩, ?_⟩
    rintro ⟨⟨out, err, hrun⟩, -⟩
    rw [hexit] at hrun
    cases hrun
  · rename_i returncode stdout stderr hexit
    by_cases hcode : returncode ≠ 0
    · rw [if_pos hcode] at h
      cases h
      refine Or.inr ⟨rfl, ⟨_, rfl, ?_⟩, ?_⟩
      · by_cases hmessage : strip (if stderr ≠ "" then stderr else stdout) ≠ ""
        · rw [if_pos hmessage]
          exact hmessage
        · rw [if_neg hmessage]
          simp [hstart]
      · rintro ⟨⟨out, err, hrun⟩, -⟩
        rw [hexit] at hrun
        cases hrun
        exact hcode rfl
    · rw [if_neg hcode] at h
      by_cases hexists : FileSystem.pathExists run.files candidate = false
      · rw [if_pos hexists] at h
        cases h
        refine Or.inr ⟨rfl, ⟨_, rfl, by simp [hstart]⟩, ?_⟩
        rintro ⟨-, htrue⟩
        rw [hexists] at htrue
        cases htrue
      · rw [if_neg hexists] at h
        cases h
        refine Or.inl ⟨rfl, rfl, ⟨stdout, stderr, ?_⟩, Bool.eq_true_of_not_eq_false hexists⟩
        rw [hexit, not_not.mp hcode]

/-- A script job is completed with its `--output` path, or failed. -/
theorem Submission.Sound.job_cases {job : TrainingJob M} {sub : Submission F}
    (h : sub.Sound job) :
    (job.status = .completed ∧ job.artifactPath = some sub.output ∧
        job.wait = .ok (.artifact sub.output) ∧ sub.run.Succeeded ∧
        FileSystem.pathExists sub.run.files sub.output = true) ∨
      (job.status = .failed ∧ job.artifactPath = none ∧ (∃ e, job.wait = .error e) ∧
        ¬ (sub.run.Succeeded ∧ FileSystem.pathExists sub.run.files sub.output = true)) := by
  obtain ⟨jobId, modelId, name, timeLimit, artifactPath, error, hv, rfl⟩ := h.judged
  rcases verdict_cases hv with ⟨rfl, rfl, hrun, hexists⟩ | ⟨rfl, ⟨message, rfl, hne⟩, hnot⟩
  · exact Or.inl ⟨rfl, rfl, rfl, hrun, hexists⟩
  · have hfilter : (some message).filter (· ≠ "") = some message := by simp [hne]
    refine Or.inr ⟨?_, rfl, ?_, hnot⟩
    · simp [TrainingJob.new, hne]
    · simp only [TrainingJob.wait, TrainingJob.new, hfilter]
      exact ⟨_, rfl⟩

/-! ## Logs -/

/-- Every script run of the log is sound. -/
def SoundLog (log : List (Returned F M)) : Prop :=
  ∀ e ∈ log, ∀ sub, e.submission = some sub → sub.Sound e.job

theorem SoundLog.snoc {log : List (Returned F M)} (h : SoundLog log) {e : Returned F M}
    (he : ∀ sub, e.submission = some sub → sub.Sound e.job) : SoundLog (log ++ [e]) := by
  intro e' hmem sub hsub
  rcases List.mem_append.mp hmem with hmem | hmem
  · exact h e' hmem sub hsub
  · obtain rfl := List.mem_singleton.mp hmem
    exact he sub hsub

theorem sound_trainScript {s : Session F M D} (h : SoundLog s.log) (name repr : String)
    (program : Program F) (args : TrainArgs) :
    SoundLog (s.trainScript name repr program args).2.log := by
  rcases s.trainScript_cases name repr program args with
    ⟨-, hlog, -⟩ | ⟨found, run, artifactPath, error, -, -, rfl, hv, heq⟩
  · rw [hlog]
    exact h
  · rw [heq]
    refine h.snoc fun sub hsub => ?_
    obtain rfl := Option.some.inj hsub
    exact ⟨⟨_, _, name, args.timeLimit, artifactPath, error, hv, rfl⟩, rfl,
      program.untouched _ _ _ _⟩

theorem sound_serve {s : Session F M D} (h : SoundLog s.log) (args : ServeArgs D) :
    SoundLog (s.serve args).2.log := by
  unfold Session.serve
  dsimp only
  split <;> exact h

/-- A call keeps the log sound, whatever is called below it. -/
theorem composes_sound :
    Session.Composes fun s s' : Session F M D => SoundLog s.log → SoundLog s'.log where
  refl _ h := h
  trans h₁ h₂ h := h₂ (h₁ h)
  change _ _ h := h
  serve _ args h := sound_serve h args
  script _ name repr program args h := sound_trainScript h name repr program args
  finish _ _ _ h₁ h := (h₁ h).snoc fun _ hsub => by cases hsub

/-- Every script run of a platform at work is sound. -/
theorem sound_run (files : F) (tr : List (Session.Op F M D)) :
    SoundLog (run Session.step (Session.init files) tr).log := by
  exact run_invariant (I := fun s : Session F M D => SoundLog s.log) (fun e he => by cases he)
    (fun s h op => composes_sound.step s op h) tr

/-! ## Artifacts of a job's own -/

/-- A completed job reports an artifact its own script created or rewrote, and a script that
exits 0 without touching its `--output` path yields a failed job. -/
def ReportsOwn (job : TrainingJob M) (sub : Submission F) : Prop :=
  (job.status = .completed → ∀ p, job.artifactPath = some p → sub.run.Produced p) ∧
    (sub.run.Succeeded → sub.output ∉ sub.run.touched → job.status = .failed)

/-- A script that finds its `--output` path taken touches it, or does not exit 0. -/
def Submission.NotStale (sub : Submission F) : Prop :=
  FileSystem.pathExists sub.found sub.output = true → sub.run.Succeeded →
    sub.output ∈ sub.run.touched

theorem Submission.Sound.reports_iff_notStale {job : TrainingJob M} {sub : Submission F}
    (h : sub.Sound job) : ReportsOwn job sub ↔ sub.NotStale := by
  have hsame := h.untouched sub.output
  rcases h.job_cases with ⟨hstatus, hpath, -, hrun, hexists⟩ | ⟨hstatus, hpath, -, hnot⟩
  · constructor
    · rintro ⟨hown, -⟩ - -
      exact (hown hstatus sub.output hpath).1
    · intro hfresh
      have htouched : sub.output ∈ sub.run.touched := by
        by_contra huntouched
        rw [hsame huntouched] at hexists
        exact huntouched (hfresh hexists hrun)
      refine ⟨fun _ p hp => ?_, fun _ huntouched => absurd htouched huntouched⟩
      rw [hpath] at hp
      obtain rfl := Option.some.inj hp
      exact ⟨htouched, hexists⟩
  · constructor
    · intro _ hfound hrun
      by_contra huntouched
      exact hnot ⟨hrun, (hsame huntouched).trans hfound⟩
    · intro _
      refine ⟨fun hcompleted => ?_, fun _ _ => hstatus⟩
      rw [hstatus] at hcompleted
      cases hcompleted

/-- **Own artifacts.** Every script job of a session reports only what its own script produced,
exactly when every script that finds its `--output` path taken touches it or does not exit 0. -/
theorem reportsOwn_iff (files : F) (tr : List (Session.Op F M D)) :
    (∀ e ∈ (run Session.step (Session.init files) tr).log, ∀ sub, e.submission = some sub →
        ReportsOwn e.job sub) ↔
      ∀ e ∈ (run Session.step (Session.init files) tr).log, ∀ sub, e.submission = some sub →
        sub.NotStale := by
  have hsound := sound_run files tr
  refine forall_congr' fun e => forall_congr' fun he => forall_congr' fun sub =>
    forall_congr' fun hsub => ?_
  exact (hsound e he sub hsub).reports_iff_notStale

/-- Write the `--output` path and exit 0. -/
def writer : Program Disk where
  run files _ output _ := ⟨{ files with files := output :: files.files }, [output], .exited 0 "" ""⟩
  untouched files dataset output timeLimit p hp := by
    have hne : p ≠ output := fun h => hp (h ▸ List.mem_singleton_self _)
    simp [FileSystem.pathExists, hne]

/-- Exit 0. -/
def idle : Program Disk where
  run files _ _ _ := ⟨files, [], .exited 0 "" ""⟩
  untouched _ _ _ _ _ _ := rfl

/-- Two script files. -/
def scripts : Disk where files := [Path.ofString "train.py", Path.ofString "noop.py"]

/-- Train `train.py`, which writes its artifact, and `noop.py`, which does not, for one model. -/
def trainThenIdle : List (Session.Op Disk Unit Unit) :=
  [.train (.file "train.py" "'train.py'" writer) { dataset := "d.csv", modelId := some "m" },
    .train (.file "noop.py" "'noop.py'" idle) { dataset := "d.csv", modelId := some "m" }]

/-- The second script exits 0 without touching anything, and its job is completed with the
artifact of the first. -/
theorem idle_reports_found :
    let log := (run Session.step (Session.init scripts) trainThenIdle).log
    (∃ e ∈ log, ∃ sub, e.submission = some sub ∧ sub.run.Succeeded ∧ sub.run.touched = [] ∧
        e.job.status = .completed) ∧
      ¬ ∀ e ∈ log, ∀ sub, e.submission = some sub → ReportsOwn e.job sub := by
  intro log
  have hfacts : (.completed, some (.exited 0 "" "", [])) ∈ log.map fun e =>
      (e.job.status, e.submission.map fun sub => (sub.run.exit, sub.run.touched)) := by
    decide +kernel
  obtain ⟨e, he, hfacts⟩ := List.mem_map.mp hfacts
  obtain ⟨hstatus, hsub⟩ := Prod.mk.inj hfacts
  obtain ⟨sub, hsub, hrun⟩ := Option.map_eq_some_iff.mp hsub
  obtain ⟨hexit, htouched⟩ := Prod.mk.inj hrun
  have hsucceeded : sub.run.Succeeded := ⟨"", "", hexit⟩
  refine ⟨⟨e, he, sub, hsub, hsucceeded, htouched, hstatus⟩, fun h => ?_⟩
  have hfailed := (h e he sub hsub).2 hsucceeded (by rw [htouched]; exact List.not_mem_nil)
  rw [hstatus] at hfailed
  cases hfailed

/-! ## Artifacts of other jobs -/

theorem candidatePath_default (n : ℕ) : Session.candidatePath (Session.defaultModelId n) =
    ⟨"", ["pystreamai_artifacts", Session.defaultModelId n, "model.pkl"]⟩ := by
  have hdigits : ∀ c ∈ (toString n).toList, c.isDigit = true := by
    intro c hc
    rw [show toString n = n.repr from rfl, Nat.repr, String.toList_ofList] at hc
    exact Nat.isDigit_of_mem_toDigits (by omega) (by omega) hc
  have hlist : (Session.defaultModelId n).toList = "model-".toList ++ (toString n).toList :=
    String.toList_append
  have hname : Path.ofString (Session.defaultModelId n) = ⟨"", [Session.defaultModelId n]⟩ := by
    refine Path.ofString_name ?_ ?_ ?_
    · rw [hlist]
      intro hmem
      rcases List.mem_append.mp hmem with hmem | hmem
      · exact absurd hmem (by decide)
      · exact absurd (hdigits _ hmem) (by decide)
    · rw [hlist]
      simp
    · rw [hlist]
      simp
  have hroot : Path.ofString "pystreamai_artifacts" = ⟨"", ["pystreamai_artifacts"]⟩ := by
    decide +kernel
  have hfile : Path.ofString "model.pkl" = ⟨"", ["model.pkl"]⟩ := by decide +kernel
  unfold Session.candidatePath Session.artifactDir Path.join
  rw [hroot, hname, hfile]
  rfl

/-- The default `--output` path tells the number of deployments. -/
theorem candidatePath_default_inj {m n : ℕ} : Session.candidatePath (Session.defaultModelId m) =
    Session.candidatePath (Session.defaultModelId n) ↔ m = n := by
  constructor
  · intro h
    rw [candidatePath_default, candidatePath_default] at h
    have hid : Session.defaultModelId m = Session.defaultModelId n := by
      simpa using congrArg Path.parts h
    exact Session.defaultModelId_inj.mp hid
  · rintro rfl
    rfl

/-- Two script jobs of one log that were not given a model id. -/
structure DefaultNamed (e₁ e₂ : Returned F M) (sub₁ sub₂ : Submission F) : Prop where
  first : e₁.submission = some sub₁
  second : e₂.submission = some sub₂
  firstDefault : sub₁.modelId = none
  secondDefault : sub₂.modelId = none

/-- While `wait` on the first job hands out an artifact, the second job has another one, and was
not given the first one's path to write to. -/
def KeepsArtifact (e₁ e₂ : Returned F M) (sub₂ : Submission F) : Prop :=
  ∀ p, e₁.job.wait = .ok (.artifact p) → e₂.job.artifactPath ≠ some p ∧ sub₂.output ≠ p

theorem keepsArtifact_iff {e₁ e₂ : Returned F M} {sub₁ sub₂ : Submission F}
    (h : DefaultNamed e₁ e₂ sub₁ sub₂) (hs₁ : sub₁.Sound e₁.job) (hs₂ : sub₂.Sound e₂.job) :
    KeepsArtifact e₁ e₂ sub₂ ↔
      (e₁.job.status = .completed → sub₁.deployments ≠ sub₂.deployments) := by
  have hout₁ := hs₁.output_eq
  have hout₂ := hs₂.output_eq
  rw [h.firstDefault, Option.getD_none] at hout₁
  rw [h.secondDefault, Option.getD_none] at hout₂
  have hdiff : sub₂.output ≠ sub₁.output ↔ sub₁.deployments ≠ sub₂.deployments := by
    rw [hout₁, hout₂, ne_comm, Ne, candidatePath_default_inj]
  unfold KeepsArtifact
  rcases hs₁.job_cases with ⟨hstatus, -, hwait, -, -⟩ | ⟨hstatus, -, ⟨e, hwait⟩, -⟩
  · rw [hwait, hstatus, ← hdiff]
    constructor
    · exact fun hkeeps _ => (hkeeps sub₁.output rfl).2
    · intro hne p hp
      obtain rfl : sub₁.output = p := by cases hp; rfl
      refine ⟨fun hpath => hne rfl ?_, hne rfl⟩
      rcases hs₂.job_cases with ⟨-, hpath₂, -⟩ | ⟨-, hpath₂, -⟩
      · rw [hpath₂] at hpath
        exact Option.some.inj hpath
      · rw [hpath₂] at hpath
        cases hpath
  · rw [hwait, hstatus]
    constructor
    · intro _ hc
      cases hc
    · intro _ p hp
      cases hp

/-- **Artifacts apart.** The script jobs of a session that were not given a model id keep apart
from the artifacts of those before them, exactly when the number of deployments at each of them
differs from that at every completed one before it. -/
theorem keepsArtifacts_iff (files : F) (tr : List (Session.Op F M D)) :
    ((run Session.step (Session.init files) tr).log.Pairwise fun e₁ e₂ => ∀ sub₁ sub₂,
        DefaultNamed e₁ e₂ sub₁ sub₂ → KeepsArtifact e₁ e₂ sub₂) ↔
      (run Session.step (Session.init files) tr).log.Pairwise fun e₁ e₂ => ∀ sub₁ sub₂,
        DefaultNamed e₁ e₂ sub₁ sub₂ → e₁.job.status = .completed →
          sub₁.deployments ≠ sub₂.deployments := by
  have hsound := sound_run files tr
  have hpair : ∀ e₁ ∈ (run Session.step (Session.init files) tr).log,
      ∀ e₂ ∈ (run Session.step (Session.init files) tr).log,
      ((∀ sub₁ sub₂, DefaultNamed e₁ e₂ sub₁ sub₂ → KeepsArtifact e₁ e₂ sub₂) ↔
        ∀ sub₁ sub₂, DefaultNamed e₁ e₂ sub₁ sub₂ → e₁.job.status = .completed →
          sub₁.deployments ≠ sub₂.deployments) := by
    intro e₁ he₁ e₂ he₂
    refine forall_congr' fun sub₁ => forall_congr' fun sub₂ => forall_congr' fun h => ?_
    exact keepsArtifact_iff h (hsound e₁ he₁ sub₁ h.first) (hsound e₂ he₂ sub₂ h.second)
  constructor
  · exact List.Pairwise.imp_of_mem fun he₁ he₂ => (hpair _ he₁ _ he₂).mp
  · exact List.Pairwise.imp_of_mem fun he₁ he₂ => (hpair _ he₁ _ he₂).mpr

/-- Train `train.py` twice with nothing served between. -/
def trainTwice : List (Session.Op Disk Unit Unit) :=
  [.train (.file "train.py" "'train.py'" writer) { dataset := "d.csv" },
    .train (.file "train.py" "'train.py'" writer) { dataset := "e.csv" }]

/-- Both jobs are completed with one artifact. -/
theorem trainTwice_shares :
    let log := (run Session.step (Session.init scripts) trainTwice).log
    (log.map fun e => (e.job.jobId, e.job.status, e.job.artifactPath)) =
        [("job-0", .completed, some (Session.candidatePath "model-0")),
          ("job-1", .completed, some (Session.candidatePath "model-0"))] ∧
      ¬ log.Pairwise fun e₁ e₂ => ∀ sub₁ sub₂, DefaultNamed e₁ e₂ sub₁ sub₂ →
        KeepsArtifact e₁ e₂ sub₂ := by
  intro log
  refine ⟨by decide +kernel, fun h => ?_⟩
  have hfacts : (log.map fun e => (e.job.status, e.submission.map fun sub =>
      (sub.modelId, sub.deployments))) =
        [(.completed, some (none, 0)), (.completed, some (none, 0))] := by decide +kernel
  obtain ⟨e₁, e₂, hlog⟩ := List.length_eq_two.mp (by simpa using congrArg List.length hfacts)
  rw [hlog] at h hfacts
  simp only [List.map_cons, List.map_nil, List.cons.injEq, Prod.mk.injEq, and_true,
    Option.map_eq_some_iff] at hfacts
  obtain ⟨⟨hstatus, sub₁, hsub₁, hid₁, hn₁⟩, -, sub₂, hsub₂, hid₂, hn₂⟩ := hfacts
  have hsound : SoundLog log := sound_run scripts trainTwice
  rw [hlog] at hsound
  have hnames : DefaultNamed e₁ e₂ sub₁ sub₂ := ⟨hsub₁, hsub₂, hid₁, hid₂⟩
  have hkeeps := List.rel_of_pairwise_cons h (List.mem_singleton_self e₂) sub₁ sub₂ hnames
  have hne := (keepsArtifact_iff hnames (hsound e₁ List.mem_cons_self sub₁ hsub₁)
    (hsound e₂ (List.mem_cons_of_mem _ (List.mem_singleton_self _)) sub₂ hsub₂)).mp hkeeps hstatus
  exact hne (hn₁.trans hn₂.symm)

end PyStreamAI
