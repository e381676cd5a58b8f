import PyStreamAI.Py.JsonIndent
import PyStreamAI.Py.Path

/-!
# The Graphify adapter

The adapter runs the `graphify` program and prints one JSON object. Whatever the program does, who
reads that object reads how the command ended, and the exit status is the one the object tells; only
what the system raises ends a command without an object (`main_reports`).
-/

open Py

namespace PyStreamAI

namespace GraphifyAdapter

/-- `subprocess.CompletedProcess`. -/
structure CompletedProcess where
  returncode : ℤ
  stdout : String
  stderr : String

/-- How `subprocess.run` ends when the process does not. -/
inductive RunError
  | timeoutExpired
  | raised (e : Exn)

/-- What the adapter asks of the system. `run` is given the arguments, the value of `GRAPHIFY_OUT`
where the adapter sets it, and the timeout; files are looked up after the run. Resolving a path and
looking one up may raise. -/
structure System where
  which : Option String
  resolve : Path → Except Exn Path
  run : List String → Option String → ℤ → Except RunError CompletedProcess
  pathExists : Path → Except Exn Bool
  helpText : String

/-- A subcommand with the arguments of its own. -/
inductive Command
  | check
  | build (timing : Bool)
  | query (text : String)
  | path (start finish : String)
  | explain (node : String)
  | affected (node : String)
  | godNodes
  | diagnose

/-- The parsed arguments. -/
structure Args where
  command : Option Command
  root : String := "."
  out : String := "graphify-out"
  timeout : ℤ := 1800
  require : Bool := false

/-- What a command prints, and its exit status. -/
structure Outcome where
  stdout : String
  stderr : String
  code : ℤ

def backend : String := "graphify"

def cli : String := "graphify"

def installHint : String :=
  pyRepr cli ++ " is not installed. Graphify is an optional analysis backend; " ++
    "install it with `uv tool install graphifyy` (or `pipx install graphifyy`)."

/-- `print(json.dumps(payload, indent=2, sort_keys=True))`. -/
def emit (payload : List (String × Json)) (code : ℤ) (stderr : String := "") : Outcome :=
  ⟨Json.dumpsIndent 2 true (.obj payload) ++ "\n", stderr, code⟩

def unavailable (args : Args) : Outcome :=
  emit [("backend", .str backend), ("available", .bool false), ("message", .str installHint)]
    (if args.require then 1 else 0) (installHint ++ "\n")

def timedOut : Outcome :=
  emit [("backend", .str backend), ("available", .bool true), ("error", .str "timed out")] 1

def graphifyOut (sys : System) (args : Args) : Except Exn Path := do
  let root ← sys.resolve (.ofString args.root)
  let out := Path.ofString args.out
  return if out.root ≠ "" then out else root.join args.out

/-- A text, or `None` when it is empty. -/
def textOrNone (s : String) : Json := if s = "" then .null else .str s

def cmdCheck (sys : System) (args : Args) : Except Exn Outcome :=
  match sys.which with
  | none => .ok (unavailable args)
  | some path =>
    let report (version : Json) := emit [("backend", .str backend), ("available", .bool true),
      ("path", .str path), ("version", version)] 0
    match sys.run [path, "--version"] none 30 with
    | .ok proc =>
      .ok (report (textOrNone (strip (if proc.stdout = "" then proc.stderr else proc.stdout))))
    | .error .timeoutExpired => .ok (report .null)
    | .error (.raised (.exception _)) => .ok (report .null)
    | .error (.raised (.base e)) => .error (.base e)

/-- `str(p) if p.exists() else None`. -/
def found (sys : System) (p : Path) : Except Exn Json := do
  return if ← sys.pathExists p then .str p.toStr else .null

def cmdBuild (sys : System) (args : Args) (timing : Bool) : Except Exn Outcome :=
  match sys.which with
  | none => .ok (unavailable args)
  | some _ => do
    let root ← sys.resolve (.ofString args.root)
    let out ← graphifyOut sys args
    let argv := [cli, "extract", root.toStr, "--code-only"] ++ if timing then ["--timing"] else []
    match sys.run argv (some out.toStr) args.timeout with
    | .error .timeoutExpired => return timedOut
    | .error (.raised e) => throw e
    | .ok proc =>
      let graph ← found sys (out.join "graph.json")
      let report ← found sys (out.join "GRAPH_REPORT.md")
      let payload := [("backend", .str backend), ("available", .bool true),
        ("output", .str out.toStr), ("graph", graph), ("report", report),
        ("returncode", .int proc.returncode)] ++
        (if proc.stdout = "" then [] else [("stdout", .str (strip proc.stdout))])
      if proc.returncode ≠ 0 then
        return emit (payload ++ [("stderr", .str (strip proc.stderr))]) 1
      else return emit payload 0

/-- `args.command`. -/
def Command.name : Command → String
  | .check => "check"
  | .build _ => "build"
  | .query _ => "query"
  | .path _ _ => "path"
  | .explain _ => "explain"
  | .affected _ => "affected"
  | .godNodes => "god-nodes"
  | .diagnose => "diagnose"

/-- What follows the name of the command. -/
def Command.texts : Command → List String
  | .check => []
  | .build _ => []
  | .query text => [text]
  | .path start finish => [start, finish]
  | .explain node => [node]
  | .affected node => [node]
  | .godNodes => []
  | .diagnose => []

def passthrough (sys : System) (args : Args) (command : Command) : Except Exn Outcome :=
  match sys.which with
  | none => .ok (unavailable args)
  | some _ => do
    let out ← graphifyOut sys args
    match sys.run (cli :: command.name :: command.texts) (some out.toStr) args.timeout with
    | .error .timeoutExpired => return timedOut
    | .error (.raised e) => throw e
    | .ok proc =>
      return emit [("backend", .str backend), ("available", .bool true),
        ("command", .str command.name), ("returncode", .int proc.returncode),
        ("stdout", .str (strip proc.stdout)), ("stderr", .str (strip proc.stderr))]
        (if proc.returncode = 0 then 0 else 1)

def main (sys : System) (args : Args) : Except Exn Outcome :=
  match args.command with
  | none => .ok ⟨"", sys.helpText, 2⟩
  | some .check => cmdCheck sys args
  | some (.build timing) => cmdBuild sys args timing
  | some command => passthrough sys args command

/-! ## The report -/

/-- The exit status that a reader of the printed object expects: an absent backend counts as a
failure when it is required, and so does an `error` or a `returncode` other than 0. -/
def expectedCode (require : Bool) (payload : Json) : ℤ :=
  match payload.field? "available" with
  | some (.bool false) => if require then 1 else 0
  | _ =>
    if (payload.field? "error").isSome then 1
    else match payload.field? "returncode" with
      | some (.int n) => if n = 0 then 0 else 1
      | _ => 0

/-- How the run of the backend ended that a command is about, unless resolving the root raises;
`check` only looks for one. -/
def backendRun (sys : System) (args : Args) :
    Command → Except Exn (Option (Except RunError CompletedProcess))
  | .check => return none
  | .build timing => do
    let root ← sys.resolve (.ofString args.root)
    let out ← graphifyOut sys args
    return some (sys.run ([cli, "extract", root.toStr, "--code-only"] ++
      if timing then ["--timing"] else []) (some out.toStr) args.timeout)
  | command => do
    let out ← graphifyOut sys args
    return some (sys.run (cli :: command.name :: command.texts) (some out.toStr) args.timeout)

/-- The backend failed, or is unavailable and required. -/
def Failed (sys : System) (args : Args) (command : Command) : Prop :=
  (sys.which = none ∧ args.require = true) ∨
    sys.which ≠ none ∧ ∃ r, backendRun sys args command = .ok (some r) ∧
      (r = .error .timeoutExpired ∨ ∃ proc, r = .ok proc ∧ proc.returncode ≠ 0)

/-- The exceptions with which a command ends before it prints anything: what asking for the version
raises when it is no `Exception`, what resolving the root raises, what running the backend raises,
and what looking up the outputs of a build raises. -/
inductive Raised (sys : System) (args : Args) : Command → Exn → Prop
  | version {path : String} {e : Error} (hwhich : sys.which = some path)
      (hrun : sys.run [path, "--version"] none 30 = .error (.raised (.base e))) :
      Raised sys args .check (.base e)
  | root {command : Command} {e : Exn} (hwhich : sys.which ≠ none)
      (hroot : backendRun sys args command = .error e) : Raised sys args command e
  | backend {command : Command} {e : Exn} (hwhich : sys.which ≠ none)
      (hrun : backendRun sys args command = .ok (some (.error (.raised e)))) :
      Raised sys args command e
  | output {timing : Bool} {proc : CompletedProcess} {out : Path} {e : Exn}
      (hwhich : sys.which ≠ none)
      (hrun : backendRun sys args (.build timing) = .ok (some (.ok proc)))
      (hout : graphifyOut sys args = .ok out)
      (hfound : sys.pathExists (out.join "graph.json") = .error e ∨
        (∃ b, sys.pathExists (out.join "graph.json") = .ok b) ∧
          sys.pathExists (out.join "GRAPH_REPORT.md") = .error e) :
      Raised sys args (.build timing) e

/-- What is printed is one JSON object that tells whether there is a backend and how the command
ended. -/
structure Reports (sys : System) (args : Args) (command : Command) (o : Outcome) : Prop where
  payload : ∃ payload, Json.loads o.stdout.toList = some payload ∧
    payload.field? "backend" = some (.str backend) ∧
    payload.field? "available" = some (.bool sys.which.isSome) ∧
    o.code = expectedCode args.require payload
  status : o.code = 1 ∧ Failed sys args command ∨ o.code = 0 ∧ ¬Failed sys args command

theorem loads_emit (payload : List (String × Json)) (code : ℤ) (stderr : String) :
    Json.loads (emit payload code stderr).stdout.toList = some (.sortKeys (.obj payload)) := by
  have hwhite : ∀ c ∈ ['\n'], Json.isWhite c = true := by
    intro c hc
    rw [List.mem_singleton.mp hc]
    rfl
  have hread := Json.loads_write (.indented 2) true (.obj payload) hwhite
  unfold emit Json.dumpsIndent
  rw [String.toList_append, String.toList_ofList]
  exact hread

theorem expectedCode_sortKeys {payload : List (String × Json)}
    (h : (payload.map Prod.fst).Nodup) (require : Bool) :
    expectedCode require (.sortKeys (.obj payload)) = expectedCode require (.obj payload) := by
  unfold expectedCode
  rw [Json.field?_sortKeys h, Json.field?_sortKeys h, Json.field?_sortKeys h, Option.isSome_map]
  rcases Json.field? "available" (.obj payload) with _ | (_ | (_ | _) | _ | _ | _ | _ | _) <;>
    rcases Json.field? "returncode" (.obj payload) with _ | (_ | _ | _ | _ | _ | _ | _) <;> rfl

variable {sys : System} {args : Args} {command : Command}

theorem reports_emit {payload : List (String × Json)} {code : ℤ} {stderr : String}
    (hkeys : (payload.map Prod.fst).Nodup)
    (hbackend : Json.field? "backend" (.obj payload) = some (.str backend))
    (havailable : Json.field? "available" (.obj payload) = some (.bool sys.which.isSome))
    (hcode : code = expectedCode args.require (.obj payload))
    (hstatus : code = 1 ∧ Failed sys args command ∨ code = 0 ∧ ¬Failed sys args command) :
    Reports sys args command (emit payload code stderr) := by
  refine ⟨⟨_, loads_emit payload code stderr, ?_, ?_, ?_⟩, hstatus⟩
  · rw [Json.field?_sortKeys hkeys, hbackend]
    rfl
  · rw [Json.field?_sortKeys hkeys, havailable]
    rfl
  · rw [expectedCode_sortKeys hkeys]
    exact hcode

theorem reports_unavailable (h : sys.which = none) : Reports sys args command (unavailable args) := by
  refine reports_emit (by decide) rfl (by rw [h]; rfl) rfl ?_
  unfold Failed
  cases hr : args.require with
  | true => exact Or.inl ⟨rfl, Or.inl ⟨h, rfl⟩⟩
  | false =>
    refine Or.inr ⟨rfl, ?_⟩
    rintro (⟨-, hreq⟩ | ⟨hne, -⟩)
    · cases hreq
    · exact hne h

theorem reports_timedOut {path : String} (h : sys.which = some path)
    (hrun : backendRun sys args command = .ok (some (.error .timeoutExpired))) :
    Reports sys args command timedOut := by
  refine reports_emit (by decide) rfl (by rw [h]; rfl) rfl (Or.inl ⟨rfl, Or.inr ⟨?_, ?_⟩⟩)
  · rw [h]
    exact Option.some_ne_none path
  · exact ⟨_, hrun, Or.inl rfl⟩

/-- A process that ended fails by its return code. -/
theorem failed_iff {path : String} {proc : CompletedProcess} (h : sys.which = some path)
    (hrun : backendRun sys args command = .ok (some (.ok proc))) :
    Failed sys args command ↔ proc.returncode ≠ 0 := by
  unfold Failed
  rw [h, hrun]
  constructor
  · rintro (⟨hnone, -⟩ | ⟨-, r, hr, htimeout | ⟨p, hp, hne⟩⟩)
    · cases hnone
    · rw [htimeout] at hr
      cases hr
    · rw [hp] at hr
      cases hr
      exact hne
  · intro hne
    exact Or.inr ⟨Option.some_ne_none path, _, rfl, Or.inr ⟨proc, rfl, hne⟩⟩

theorem cmdCheck_reports {o : Outcome} (h : cmdCheck sys args = .ok o) :
    Reports sys args .check o := by
  unfold cmdCheck at h
  have hpass : ∀ path version, sys.which = some path →
      Reports sys args .check (emit [("backend", .str backend), ("available", .bool true),
        ("path", .str path), ("version", version)] 0) := by
    intro path version hw
    refine reports_emit (by simp) rfl (by rw [hw]; rfl) rfl (Or.inr ⟨rfl, ?_⟩)
    rintro (⟨hnone, -⟩ | ⟨-, r, hr, -⟩)
    · rw [hw] at hnone
      cases hnone
    · cases hr
  cases hw : sys.which with
  | none =>
    rw [hw] at h
    obtain rfl := Except.ok.inj h
    exact reports_unavailable hw
  | some path =>
    rw [hw] at h
    dsimp only at h
    rcases hrun : sys.run [path, "--version"] none 30 with (_ | (e | e)) | proc <;> rw [hrun] at h
    · obtain rfl := Except.ok.inj h
      exact hpass path _ hw
    · obtain rfl := Except.ok.inj h
      exact hpass path _ hw
    · cases h
    · obtain rfl := Except.ok.inj h
      exact hpass path _ hw

theorem passthrough_reports {o : Outcome} (h : passthrough sys args command = .ok o)
    (hrun : backendRun sys args command = do
      let out ← graphifyOut sys args
      return some (sys.run (cli :: command.name :: command.texts) (some out.toStr) args.timeout)) :
    Reports sys args command o := by
  unfold passthrough at h
  cases hw : sys.which with
  | none =>
    rw [hw] at h
    obtain rfl := Except.ok.inj h
    exact reports_unavailable hw
  | some path =>
    rw [hw] at h
    obtain ⟨out, hout, h⟩ := bind_eq_ok h
    rw [hout] at hrun
    rcases hend : sys.run (cli :: command.name :: command.texts) (some out.toStr) args.timeout
      with (_ | e) | proc <;> rw [hend] at h <;>
      replace hrun := hrun.trans (congrArg (fun r => Except.ok (some r)) hend)
    · obtain rfl := Except.ok.inj h
      exact reports_timedOut hw hrun
    · cases h
    · obtain rfl := Except.ok.inj h
      refine reports_emit (by simp) rfl (by rw [hw]; rfl) rfl ?_
      rw [failed_iff hw hrun]
      by_cases hzero : proc.returncode = 0
      · exact Or.inr ⟨if_pos hzero, not_not.mpr hzero⟩
      · exact Or.inl ⟨if_neg hzero, hzero⟩

theorem backendRun_build {root out : Path} (timing : Bool)
    (hroot : sys.resolve (.ofString args.root) = .ok root) (hout : graphifyOut sys args = .ok out) :
    backendRun sys args (.build timing) = .ok (some (sys.run ([cli, "extract", root.toStr,
      "--code-only"] ++ if timing then ["--timing"] else []) (some out.toStr) args.timeout)) := by
  unfold backendRun
  rw [hroot, hout]
  rfl

theorem cmdBuild_reports {timing : Bool} {o : Outcome} (h : cmdBuild sys args timing = .ok o) :
    Reports sys args (.build timing) o := by
  unfold cmdBuild at h
  cases hw : sys.which with
  | none =>
    rw [hw] at h
    obtain rfl := Except.ok.inj h
    exact reports_unavailable hw
  | some path =>
    rw [hw] at h
    obtain ⟨root, hroot, h⟩ := bind_eq_ok h
    obtain ⟨out, hout, h⟩ := bind_eq_ok h
    have hrun := backendRun_build timing hroot hout
    dsimp only at h
    rcases hend : sys.run ([cli, "extract", root.toStr, "--code-only"] ++
      if timing then ["--timing"] else []) (some out.toStr) args.timeout
      with (_ | e) | proc <;> rw [hend] at h hrun
    · obtain rfl := Except.ok.inj h
      exact reports_timedOut hw hrun
    · cases h
    · have hfailed := failed_iff hw hrun
      obtain ⟨graph, -, h⟩ := bind_eq_ok h
      obtain ⟨report, -, h⟩ := bind_eq_ok h
      by_cases hzero : proc.returncode = 0
      · have hstatus : (0 : ℤ) = 1 ∧ Failed sys args (.build timing) ∨
            (0 : ℤ) = 0 ∧ ¬Failed sys args (.build timing) :=
          Or.inr ⟨rfl, fun hf => hfailed.mp hf hzero⟩
        rw [if_neg (not_not.mpr hzero)] at h
        obtain rfl := Except.ok.inj h
        split_ifs
        · exact reports_emit (by simp) rfl (by rw [hw]; rfl) (if_pos hzero).symm hstatus
        · exact reports_emit (by simp) rfl (by rw [hw]; rfl) (if_pos hzero).symm hstatus
      · have hstatus : (1 : ℤ) = 1 ∧ Failed sys args (.build timing) ∨
            (1 : ℤ) = 0 ∧ ¬Failed sys args (.build timing) := Or.inl ⟨rfl, hfailed.mpr hzero⟩
        rw [if_pos hzero] at h
        obtain rfl := Except.ok.inj h
        split_ifs
        · exact reports_emit (by simp) rfl (by rw [hw]; rfl) (if_neg hzero).symm hstatus
        · exact reports_emit (by simp) rfl (by rw [hw]; rfl) (if_neg hzero).symm hstatus

/-! ## What a command raises -/

theorem cmdCheck_error_iff {e : Exn} : cmdCheck sys args = .error e ↔ Raised sys args .check e := by
  unfold cmdCheck
  constructor
  · intro h
    cases hw : sys.which with
    | none =>
      rw [hw] at h
      cases h
    | some path =>
      rw [hw] at h
      dsimp only at h
      rcases hend : sys.run [path, "--version"] none 30 with (_ | (e' | e')) | proc <;>
        rw [hend] at h
      · cases h
      · cases h
      · obtain rfl := Except.error.inj h
        exact .version hw hend
      · cases h
  · intro h
    cases h with
    | version hwhich hrun =>
      rw [hwhich]
      dsimp only
      rw [hrun]
    | root _ hroot => cases hroot
    | backend _ hrun => cases hrun

/-- A run ends the command with an exception exactly when it raises. -/
theorem passthrough_error_iff {e : Exn} (hrun : backendRun sys args command = do
      let out ← graphifyOut sys args
      return some (sys.run (cli :: command.name :: command.texts) (some out.toStr) args.timeout)) :
    passthrough sys args command = .error e ↔ sys.which ≠ none ∧
      (backendRun sys args command = .error e ∨
        backendRun sys args command = .ok (some (.error (.raised e)))) := by
  rw [hrun]
  unfold passthrough
  cases hw : sys.which with
  | none => simp
  | some path =>
    cases hout : graphifyOut sys args with
    | error e' => simp
    | ok out =>
      rcases hend : sys.run (cli :: command.name :: command.texts) (some out.toStr) args.timeout
        with (_ | e') | proc <;> simp [hend, pure, Except.pure, throw, throwThe, MonadExceptOf.throw]

theorem found_eq_error_iff {p : Path} {e : Exn} :
    found sys p = .error e ↔ sys.pathExists p = .error e := by
  unfold found
  rw [bind_eq_error_iff]
  simp [pure, Except.pure]

theorem raised_of_cmdBuild {timing : Bool} {e : Exn} (h : cmdBuild sys args timing = .error e) :
    Raised sys args (.build timing) e := by
  unfold cmdBuild at h
  cases hw : sys.which with
  | none =>
    rw [hw] at h
    cases h
  | some path =>
    rw [hw] at h
    have hwhich : sys.which ≠ none := by
      rw [hw]
      exact Option.some_ne_none path
    rcases bind_eq_error_iff.mp h with hroot | ⟨root, hroot, h⟩
    · exact .root hwhich (bind_eq_error_iff.mpr (Or.inl hroot))
    rcases bind_eq_error_iff.mp h with hout | ⟨out, hout, h⟩
    · refine .root hwhich (bind_eq_error_iff.mpr (Or.inr ⟨root, hroot, ?_⟩))
      exact bind_eq_error_iff.mpr (Or.inl hout)
    have hrun := backendRun_build timing hroot hout
    dsimp only at h
    rcases hend : sys.run ([cli, "extract", root.toStr, "--code-only"] ++
      if timing then ["--timing"] else []) (some out.toStr) args.timeout
      with (_ | e') | proc <;> rw [hend] at h hrun
    · cases h
    · obtain rfl := Except.error.inj h
      exact .backend hwhich hrun
    rcases bind_eq_error_iff.mp h with hgraph | ⟨graph, hgraph, h⟩
    · exact .output hwhich hrun hout (Or.inl (found_eq_error_iff.mp hgraph))
    rcases bind_eq_error_iff.mp h with hreport | ⟨report, -, h⟩
    · obtain ⟨b, hb, -⟩ := bind_eq_ok hgraph
      exact .output hwhich hrun hout (Or.inr ⟨⟨b, hb⟩, found_eq_error_iff.mp hreport⟩)
    split_ifs at h <;> cases h

/-- How far a build has come that has run the backend. -/
theorem of_backendRun_build {timing : Bool} {r : Except RunError CompletedProcess}
    (h : backendRun sys args (.build timing) = .ok (some r)) :
    ∃ root out, sys.resolve (.ofString args.root) = .ok root ∧ graphifyOut sys args = .ok out ∧
      sys.run ([cli, "extract", root.toStr, "--code-only"] ++ if timing then ["--timing"] else [])
        (some out.toStr) args.timeout = r := by
  obtain ⟨root, hroot, h⟩ := bind_eq_ok h
  obtain ⟨out, hout, h⟩ := bind_eq_ok h
  exact ⟨root, out, hroot, hout, Option.some.inj (Except.ok.inj h)⟩

theorem cmdBuild_of_raised {timing : Bool} {e : Exn} (h : Raised sys args (.build timing) e) :
    cmdBuild sys args timing = .error e := by
  have hwhich : sys.which ≠ none := by cases h <;> assumption
  obtain ⟨path, hw⟩ := Option.ne_none_iff_exists'.mp hwhich
  unfold cmdBuild
  rw [hw]
  refine bind_eq_error_iff.mpr ?_
  cases h with
  | root _ h =>
    rcases bind_eq_error_iff.mp h with hroot | ⟨root, hroot, h⟩
    · exact Or.inl hroot
    rcases bind_eq_error_iff.mp h with hout | ⟨out, -, h⟩
    · exact Or.inr ⟨root, hroot, bind_eq_error_iff.mpr (Or.inl hout)⟩
    · cases h
  | backend _ hrun =>
    obtain ⟨root, out, hroot, hout, hend⟩ := of_backendRun_build hrun
    refine Or.inr ⟨root, hroot, bind_eq_error_iff.mpr (Or.inr ⟨out, hout, ?_⟩)⟩
    dsimp only
    rw [hend]
    rfl
  | output _ hrun hout hfound =>
    obtain ⟨root, out, hroot, hout', hend⟩ := of_backendRun_build hrun
    obtain rfl := Except.ok.inj (hout.symm.trans hout')
    refine Or.inr ⟨root, hroot, bind_eq_error_iff.mpr (Or.inr ⟨_, hout, ?_⟩)⟩
    dsimp only
    rw [hend]
    refine bind_eq_error_iff.mpr ?_
    rcases hfound with hgraph | ⟨⟨b, hb⟩, hreport⟩
    · exact Or.inl (found_eq_error_iff.mpr hgraph)
    · refine Or.inr ⟨_, by unfold found; rw [hb]; rfl, bind_eq_error_iff.mpr (Or.inl ?_)⟩
      exact found_eq_error_iff.mpr hreport

theorem passthrough_raised_iff {e : Exn} (hrun : backendRun sys args command = do
      let out ← graphifyOut sys args
      return some (sys.run (cli :: command.name :: command.texts) (some out.toStr) args.timeout))
    (hraised : Raised sys args command e → sys.which ≠ none ∧
      (backendRun sys args command = .error e ∨
        backendRun sys args command = .ok (some (.error (.raised e))))) :
    passthrough sys args command = .error e ↔ Raised sys args command e := by
  rw [passthrough_error_iff hrun]
  refine ⟨?_, hraised⟩
  rintro ⟨hwhich, h | h⟩
  · exact .root hwhich h
  · exact .backend hwhich h

/-- **One object on stdout.** A command that ends prints one JSON object, from which its exit status
can be told, and the status is 1 exactly when the backend failed, or is unavailable and required. It
ends so unless something it asks of the system raises: then it raises the same and has printed
nothing. Without a command nothing is printed on stdout, and the status is 2. -/
theorem main_reports (sys : System) (args : Args) :
    match args.command, main sys args with
    | none, r => r = .ok ⟨"", sys.helpText, 2⟩
    | some command, .ok o => Reports sys args command o ∧ ∀ e, ¬Raised sys args command e
    | some command, .error e => ∀ e', Raised sys args command e' ↔ e' = e := by
  cases hc : args.command with
  | none =>
    unfold main
    rw [hc]
  | some command =>
    have hmain : (∀ o, main sys args = .ok o → Reports sys args command o) ∧
        ∀ e, main sys args = .error e ↔ Raised sys args command e := by
      unfold main
      rw [hc]
      cases command with
      | check => exact ⟨fun o => cmdCheck_reports, fun e => cmdCheck_error_iff⟩
      | build timing =>
        exact ⟨fun o => cmdBuild_reports, fun e => ⟨raised_of_cmdBuild, cmdBuild_of_raised⟩⟩
      | _ =>
        refine ⟨fun o h => passthrough_reports h rfl, fun e => passthrough_raised_iff rfl ?_⟩
        intro h
        cases h with
        | root hwhich h => exact ⟨hwhich, Or.inl h⟩
        | backend hwhich h => exact ⟨hwhich, Or.inr h⟩
    obtain ⟨hreports, hraised⟩ := hmain
    cases hm : main sys args with
    | ok o =>
      refine ⟨hreports o hm, fun e he => ?_⟩
      rw [(hraised e).mpr he] at hm
      cases hm
    | error e =>
      intro e'
      rw [← hraised e', hm]
      exact ⟨fun h => (Except.error.inj h).symm, fun h => congrArg Except.error h.symm⟩

end GraphifyAdapter

end PyStreamAI
