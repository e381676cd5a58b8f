import PyStreamAI.Machine
import PyStreamAI.Py.Dict
import PyStreamAI.Py.Path

/-!
# Training and serving

`Platform.train` runs a training callable in the process or a training script in a subprocess.
What a callable does is a tree of its calls on the platform and its reads and writes of files
(`Body`), so a callable can train and serve again, to any depth, and go on with what these calls
returned. A script is any change of the file system that knows which paths it touches (`Program`).
The session of a platform keeps a log of the calls of `train` that returned.
-/

open Py

namespace PyStreamAI

/-! ## Jobs -/

/-- Status of a training job. -/
inductive JobStatus
  | running
  | completed
  | failed
  | cancelled
  deriving DecidableEq, Repr

/-- A training job. -/
structure TrainingJob (M : Type) where
  jobId : String
  modelId : String
  model : Option M
  artifactPath : Option Path
  error : Option String
  status : JobStatus
  deriving DecidableEq

/-- What `wait` hands out. -/
inductive TrainingResult (M : Type)
  | artifact (path : Path)
  | model (model : M)
  deriving DecidableEq

namespace TrainingJob

variable {M : Type}

/-- A job with the status of its outcome. The empty error counts as none. -/
def new (jobId modelId : String) (model : Option M) (artifactPath : Option Path)
    (error : Option String) : TrainingJob M :=
  { jobId, modelId, model, artifactPath, error
    status :=
      if (error.filter (· ≠ "")).isSome then .failed
      else if model.isSome ∨ artifactPath.isSome then .completed
      else .running }

/-- Wait for training to complete. -/
def wait (job : TrainingJob M) : Except Error (TrainingResult M) :=
  match job.error.filter (· ≠ "") with
  | some error => .error ⟨"RuntimeError", s!"Training job {job.jobId} failed: {error}"⟩
  | none =>
    match job.artifactPath with
    | some path => .ok (.artifact path)
    | none =>
      match job.model with
      | some model => .ok (.model model)
      | none => .error ⟨"RuntimeError",
          s!"Training job {job.jobId} has no result. This should not " ++
            "happen for a job that isn't in 'failed' status -- please report it."⟩

end TrainingJob

/-! ## Scripts -/

/-- How a subprocess ended: `subprocess.run` returned, timed out or raised otherwise. -/
inductive Exit
  | exited (returncode : ℤ) (stdout stderr : String)
  | timedOut
  | raised (e : Exn)
  deriving DecidableEq

/-- A run of a script: the files it leaves, the paths it created, rewrote or removed, and its
end. -/
structure ScriptRun (F : Type) where
  files : F
  touched : List Path
  exit : Exit

/-- A training script: its run on the files it finds, the dataset, the `--output` path and the
time limit. What it does not touch is there afterwards if and only if it was there before. -/
structure Program (F : Type) [FileSystem F] where
  run : F → String → Path → Option String → ScriptRun F
  untouched : ∀ files dataset output timeLimit p, p ∉ (run files dataset output timeLimit).touched →
    FileSystem.pathExists (run files dataset output timeLimit).files p =
      FileSystem.pathExists files p

/-! ## Code -/

/-- The arguments of `train` beside the code; `modelId` is the keyword, if given. -/
structure TrainArgs where
  dataset : String
  gpu : Option String := none
  timeLimit : Option String := none
  modelId : Option String := none

/-- An endpoint. -/
structure Platform.Endpoint (D : Type) where
  modelId : String
  replicas : ℤ
  gpu : Option String
  model : D

/-- The arguments of `serve`; `model` is the model, or what `Endpoint` raises for it. -/
structure ServeArgs (D : Type) where
  model : Except Exn D
  replicas : ℤ := 1
  gpu : Option String := none
  modelId : Option String := none

mutual

/-- What remains of the run of a training callable. -/
inductive Body (F M D : Type) [FileSystem F]
  /-- Return. -/
  | done (model : Option M)
  /-- Raise. -/
  | throw (e : Exn)
  /-- Change the files, and go on with what was found. -/
  | io (change : F → F) (next : F → Body F M D)
  /-- Call `train`. -/
  | train (code : Code F M D) (args : TrainArgs)
    (next : Except Exn (TrainingJob M) → Body F M D)
  /-- Call `serve`. -/
  | serve (args : ServeArgs D) (next : Except Exn (Platform.Endpoint D) → Body F M D)

/-- The first argument of `train`: a callable, applied to the dataset, a text or path with its
`str` and `repr` and the script that may be there, or anything else. -/
inductive Code (F M D : Type) [FileSystem F]
  | callable (body : Body F M D)
  | file (name repr : String) (program : Program F)
  | other (repr : String)

end

/-! ## The platform -/

/-- The platform. -/
structure Platform (M D : Type) where
  deployments : Dict String (Platform.Endpoint D) := ∅
  jobs : Dict String (TrainingJob M) := ∅

/-- A script run of a call of `train`: the keyword `model_id`, the number of deployments at the
call, the `--output` path, the files the script found, and what it did. -/
structure Submission (F : Type) where
  modelId : Option String
  deployments : ℕ
  output : Path
  found : F
  run : ScriptRun F

/-- A call of `train` that returned: the job, the number of calls of `train` that returned while
this one was running, and the run of the script, if it was for one. -/
structure Returned (F M : Type) where
  job : TrainingJob M
  inner : ℕ
  submission : Option (Submission F)

/-- A platform at work: the files around it, and the calls of `train` that returned so far. -/
structure Session (F M D : Type) where
  platform : Platform M D := {}
  files : F
  log : List (Returned F M) := []

namespace Session

variable {F M D : Type} [FileSystem F]

/-- `f"job-{len(self.jobs)}"`. -/
def nextJobId (s : Session F M D) : String := "job-" ++ toString s.platform.jobs.len

/-- `f"model-{n}"`. -/
def defaultModelId (deployments : ℕ) : String := "model-" ++ toString deployments

theorem defaultModelId_inj {m n : ℕ} : defaultModelId m = defaultModelId n ↔ m = n :=
  ⟨append_toString_inj, fun h => h ▸ rfl⟩

/-- `kwargs.get("model_id", f"model-{len(self.deployments)}")`. -/
def modelIdFor (s : Session F M D) (modelId : Option String) : String :=
  modelId.getD (defaultModelId s.platform.deployments.len)

/-- The directory of the artifacts of a model. -/
def artifactDir (modelId : String) : Path := (Path.ofString "pystreamai_artifacts").join modelId

/-- The `--output` path of a script. -/
def candidatePath (modelId : String) : Path := (artifactDir modelId).join "model.pkl"

/-- The artifact or the error of a script run, unless `subprocess.run` raised. -/
def verdict (name : String) (timeLimit : Option String) (candidate : Path) (run : ScriptRun F) :
    Except Exn (Option Path × Option String) :=
  match run.exit with
  | .raised e => .error e
  | .timedOut =>
    .ok (none, some s!"training script {name} exceeded time_limit={pyReprOption timeLimit}")
  | .exited returncode stdout stderr =>
    if returncode ≠ 0 then
      let message := strip (if stderr ≠ "" then stderr else stdout)
      .ok (none, some (if message ≠ "" then message
        else s!"training script {name} exited with code {returncode}"))
    else if FileSystem.pathExists run.files candidate = false then
      .ok (none, some (s!"training script {name} exited 0 but did not write " ++
        s!"an artifact to the --output path it was given ({candidate.toStr})"))
    else .ok (some candidate, none)

/-- The end of `train`: store the job and return it. `calls` is the number of calls that had
returned when this one began. -/
def finish (s : Session F M D) (job : TrainingJob M) (calls : ℕ)
    (submission : Option (Submission F)) : Except Exn (TrainingJob M) × Session F M D :=
  (.ok job, { s with
    platform := { s.platform with jobs := s.platform.jobs.set job.jobId job }
    log := s.log ++ [⟨job, s.log.length - calls, submission⟩] })

/-- The part of `train` for a script. -/
def trainScript (s : Session F M D) (name repr : String) (program : Program F) (args : TrainArgs) :
    Except Exn (TrainingJob M) × Session F M D :=
  let jobId := s.nextJobId
  let modelId := s.modelIdFor args.modelId
  if FileSystem.isFile s.files (Path.ofString name) then
    match FileSystem.mkdir s.files (artifactDir modelId) with
    | (.error e, files) => (.error e, { s with files })
    | (.ok (), found) =>
      let candidate := candidatePath modelId
      let run := program.run found args.dataset candidate args.timeLimit
      let s' := { s with files := run.files }
      match verdict name args.timeLimit candidate run with
      | .error e => (.error e, s')
      | .ok (artifactPath, error) =>
        s'.finish (.new jobId modelId none artifactPath error) s.log.length
          (some ⟨args.modelId, s.platform.deployments.len, candidate, found, run⟩)
  else (.error (.exception (notTrainable repr)), s)
where
  /-- The error for code that is neither callable nor an existing file. -/
  notTrainable (repr : String) : Error :=
    ⟨"TypeError", s!"code={repr} is neither callable nor an existing file path. " ++
      "Platform.train() needs a real callable (called as code(dataset)) " ++
      "or a real training script path -- see train()'s docstring."⟩

/-- Deploy a model as an endpoint. -/
def serve (s : Session F M D) (args : ServeArgs D) :
    Except Exn (Platform.Endpoint D) × Session F M D :=
  let modelId := s.modelIdFor args.modelId
  match args.model with
  | .error e => (.error e, s)
  | .ok model =>
    let endpoint : Platform.Endpoint D := ⟨modelId, args.replicas, args.gpu, model⟩
    (.ok endpoint, { s with
      platform := { s.platform with
        deployments := s.platform.deployments.set modelId endpoint } })

mutual

/-- Run a training job. -/
def train (s : Session F M D) (args : TrainArgs) : Code F M D →
    Except Exn (TrainingJob M) × Session F M D
  | .callable body =>
    let jobId := s.nextJobId
    let modelId := s.modelIdFor args.modelId
    let calls := s.log.length
    match exec s body with
    | (.ok model, s) => s.finish (.new jobId modelId model none none) calls none
    | (.error (.exception e), s) =>
      s.finish (.new jobId modelId none none (some (e.typeName ++ ": " ++ e.text))) calls none
    | (.error (.base e), s) => (.error (.base e), s)
  | .file name repr program => s.trainScript name repr program args
  | .other repr => (.error (.exception (trainScript.notTrainable repr)), s)

/-- Run a training callable to its end. -/
def exec (s : Session F M D) : Body F M D → Except Exn (Option M) × Session F M D
  | .done model => (.ok model, s)
  | .throw e => (.error e, s)
  | .io change next => exec { s with files := change s.files } (next s.files)
  | .train code args next =>
    let (r, s) := train s args code
    exec s (next r)
  | .serve args next =>
    let (r, s) := s.serve args
    exec s (next r)

end

/-- What can happen on a platform: calls of `train` and `serve`, whatever they raise, and changes
of the files by others. -/
inductive Op (F M D : Type) [FileSystem F]
  | train (code : Code F M D) (args : TrainArgs)
  | serve (args : ServeArgs D)
  | change (change : F → F)

/-- The session after a call or a change. -/
def step (s : Session F M D) : Op F M D → Session F M D
  | .train code args => (s.train args code).2
  | .serve args => (s.serve args).2
  | .change change => { s with files := change s.files }

/-- A new platform. -/
def init (files : F) : Session F M D := { files }

/-! ## What a call does -/

/-- A call for a script raises and stores nothing, or has run it: what was found, what it did and
the verdict. -/
theorem trainScript_cases (s : Session F M D) (name repr : String) (program : Program F)
    (args : TrainArgs) :
    ((∃ e, (s.trainScript name repr program args).1 = .error e) ∧
        (s.trainScript name repr program args).2.log = s.log ∧
        (s.trainScript name repr program args).2.platform = s.platform) ∨
      ∃ found run artifactPath error,
        FileSystem.isFile s.files (Path.ofString name) = true ∧
        FileSystem.mkdir s.files (artifactDir (s.modelIdFor args.modelId)) = (.ok (), found) ∧
        run = program.run found args.dataset (candidatePath (s.modelIdFor args.modelId))
          args.timeLimit ∧
        verdict name args.timeLimit (candidatePath (s.modelIdFor args.modelId)) run =
          .ok (artifactPath, error) ∧
        s.trainScript name repr program args =
          ({ s with files := run.files } : Session F M D).finish
            (.new s.nextJobId (s.modelIdFor args.modelId) none artifactPath error) s.log.length
            (some ⟨args.modelId, s.platform.deployments.len,
              candidatePath (s.modelIdFor args.modelId), found, run⟩) := by
  unfold trainScript
  dsimp only
  split_ifs with hfile
  · split
    · exact Or.inl ⟨⟨_, rfl⟩, rfl, rfl⟩
    · rename_i found hmkdir
      split
      · exact Or.inl ⟨⟨_, rfl⟩, rfl, rfl⟩
      · rename_i artifactPath error hv
        exact Or.inr ⟨found, _, artifactPath, error, hfile, hmkdir, rfl, hv, rfl⟩
  · exact Or.inl ⟨⟨_, rfl⟩, rfl, rfl⟩

/-- A call for a callable stores what the callable returned or the `Exception` it raised, and lets
any other exception through. -/
theorem train_callable_cases (s : Session F M D) (args : TrainArgs) (body : Body F M D) :
    (∃ model, (s.exec body).1 = .ok model ∧
      s.train args (.callable body) = (s.exec body).2.finish
        (.new s.nextJobId (s.modelIdFor args.modelId) model none none) s.log.length none) ∨
    (∃ e, (s.exec body).1 = .error (.exception e) ∧
      s.train args (.callable body) = (s.exec body).2.finish
        (.new s.nextJobId (s.modelIdFor args.modelId) none none
          (some (e.typeName ++ ": " ++ e.text))) s.log.length none) ∨
    ∃ e, (s.exec body).1 = .error (.base e) ∧
      s.train args (.callable body) = (.error (.base e), (s.exec body).2) := by
  rw [train]
  generalize s.exec body = r
  obtain ⟨(e | model), s'⟩ := r
  · cases e with
    | exception e => exact .inr (.inl ⟨e, rfl, rfl⟩)
    | base e => exact .inr (.inr ⟨e, rfl, rfl⟩)
  · exact .inl ⟨model, rfl, rfl⟩

/-! ## Trees of calls -/

/-- A relation of sessions that holds across calls because it holds across what they consist of. -/
structure Composes (R : Session F M D → Session F M D → Prop) : Prop where
  refl : ∀ s, R s s
  trans : ∀ {s₁ s₂ s₃}, R s₁ s₂ → R s₂ s₃ → R s₁ s₃
  change : ∀ s files, R s { s with files }
  serve : ∀ s args, R s (s.serve args).2
  script : ∀ s name repr program args, R s (s.trainScript name repr program args).2
  finish : ∀ {s s₁} modelId model error, R s s₁ →
    R s (s₁.finish (.new s.nextJobId modelId model none error) s.log.length none).2

section Trees

variable {R : Session F M D → Session F M D → Prop}

mutual

theorem Composes.train (h : Composes R) (s : Session F M D) (args : TrainArgs) :
    (code : Code F M D) → R s (s.train args code).2
  | .callable body => by
    have hbody := h.exec s body
    rcases s.train_callable_cases args body with ⟨model, -, heq⟩ | ⟨e, -, heq⟩ | ⟨e, -, heq⟩
    · rw [heq]
      exact h.finish _ _ _ hbody
    · rw [heq]
      exact h.finish _ _ _ hbody
    · rw [heq]
      exact hbody
  | .file name repr program => by
    rw [Session.train]
    exact h.script s name repr program args
  | .other repr => by
    rw [Session.train]
    exact h.refl s

theorem Composes.exec (h : Composes R) (s : Session F M D) :
    (body : Body F M D) → R s (s.exec body).2
  | .done model => by
    rw [Session.exec]
    exact h.refl s
  | .throw e => by
    rw [Session.exec]
    exact h.refl s
  | .io change next => by
    rw [Session.exec]
    exact h.trans (h.change s _) (h.exec _ (next s.files))
  | .train code args next => by
    rw [Session.exec]
    exact h.trans (h.train s args code) (h.exec _ (next _))
  | .serve args next => by
    rw [Session.exec]
    exact h.trans (h.serve s args) (h.exec _ (next _))

end

theorem Composes.step (h : Composes R) (s : Session F M D) (op : Op F M D) : R s (s.step op) := by
  cases op with
  | train code args => exact h.train s args code
  | serve args => exact h.serve s args
  | change change => exact h.change s _

end Trees

end Session

end PyStreamAI
