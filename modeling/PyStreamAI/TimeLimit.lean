import Mathlib.Algebra.Order.Field.Rat
import PyStreamAI.Platform
import PyStreamAI.Py.Numeral

/-!
# Time limits of training scripts

A time limit is digits and a unit, between white space (`parseTimeLimitSeconds_iff`). What is none is
no limit: calls of `train` go on with it as they do without it. A script is stopped exactly when it
takes longer than its limit says. A limit with too many digits raises after the directory for the
artifact was made, and one that is too long to wait for after the script was started
(`limits_run`).
-/

open Py Machine

namespace PyStreamAI

/-! ## The text of a limit -/

inductive TimeUnit
  | second
  | minute
  | hour
  deriving DecidableEq

namespace TimeUnit

def char : TimeUnit → Char
  | second => 's'
  | minute => 'm'
  | hour => 'h'

def seconds : TimeUnit → ℕ
  | second => 1
  | minute => 60
  | hour => 3600

def ofChar? (c : Char) : Option TimeUnit :=
  if c = 's' then some second else if c = 'm' then some minute else if c = 'h' then some hour else none

theorem ofChar?_eq_some {c : Char} {u : TimeUnit} : ofChar? c = some u ↔ c = u.char := by
  unfold ofChar?
  constructor
  · split_ifs with hs hm hh
    · rintro ⟨⟩
      exact hs
    · rintro ⟨⟩
      exact hm
    · rintro ⟨⟩
      exact hh
    · rintro ⟨⟩
  · rintro rfl
    cases u <;> rfl

theorem isDecimal_char (u : TimeUnit) : isDecimal u.char = false := by
  cases u <;> decide

theorem isSpace_char (u : TimeUnit) : isSpace u.char = false := by
  cases u <;> decide

end TimeUnit

/-- The groups of `_TIME_LIMIT_RE.match`. Its `$` matches before a line feed at the end as well. -/
def matchTimeLimit (text : List Char) : Option (List Char × TimeUnit) :=
  match text.dropWhile isDecimal with
  | [] => none
  | c :: rest =>
    if text.takeWhile isDecimal ≠ [] ∧ (rest = [] ∨ rest = ['\n']) then
      (TimeUnit.ofChar? c).map fun u => (text.takeWhile isDecimal, u)
    else none

/-- Parse "30m"/"1h"/"90s" into seconds. -/
def parseTimeLimitSeconds (timeLimit : Option String) : Except Error (Option ℕ) :=
  match timeLimit.filter (· ≠ "") with
  | none => .ok none
  | some text =>
    match matchTimeLimit (strip text).toList with
    | none => .ok none
    | some (digits, u) => (intOfDigits digits).map fun n => some (n * u.seconds)

/-- The text is the digits and the unit, between white space. -/
def Reads (text : String) (digits : List Char) (u : TimeUnit) : Prop :=
  digits ≠ [] ∧ (∀ c ∈ digits, isDecimal c = true) ∧
  ∃ w w', (∀ c ∈ w, isSpace c = true) ∧ (∀ c ∈ w', isSpace c = true) ∧
    text.toList = w ++ (digits ++ [u.char]) ++ w'

theorem matchTimeLimit_eq_some {text digits : List Char} {u : TimeUnit} :
    matchTimeLimit text = some (digits, u) ↔ digits ≠ [] ∧ (∀ c ∈ digits, isDecimal c = true) ∧
      (text = digits ++ [u.char] ∨ text = digits ++ [u.char, '\n']) := by
  constructor
  · intro h
    unfold matchTimeLimit at h
    cases hdrop : text.dropWhile isDecimal with
    | nil =>
      rw [hdrop] at h
      cases h
    | cons c rest =>
      rw [hdrop] at h
      dsimp only at h
      split_ifs at h with hmatch
      obtain ⟨u', hu', heq⟩ := Option.map_eq_some_iff.mp h
      obtain ⟨rfl, rfl⟩ := Prod.mk.inj heq
      have htext : text = text.takeWhile isDecimal ++ c :: rest := by
        rw [← hdrop, List.takeWhile_append_dropWhile]
      obtain rfl := TimeUnit.ofChar?_eq_some.mp hu'
      refine ⟨hmatch.1, fun c hc => List.mem_takeWhile_imp hc, ?_⟩
      rcases hmatch.2 with rfl | rfl
      · exact Or.inl htext
      · exact Or.inr htext
  · rintro ⟨hne, hdigits, htext⟩
    have hsplit : ∀ rest, rest = [] ∨ rest = ['\n'] →
        matchTimeLimit (digits ++ u.char :: rest) = some (digits, u) := by
      intro rest hrest
      have hu : ¬isDecimal u.char = true := by
        rw [u.isDecimal_char]
        decide
      have hdrop : (digits ++ u.char :: rest).dropWhile isDecimal = u.char :: rest := by
        rw [List.dropWhile_append_of_pos hdigits, List.dropWhile_cons_of_neg hu]
      have htake : (digits ++ u.char :: rest).takeWhile isDecimal = digits := by
        rw [List.takeWhile_append_of_pos hdigits, List.takeWhile_cons_of_neg hu, List.append_nil]
      unfold matchTimeLimit
      rw [hdrop, htake]
      dsimp only
      rw [if_pos ⟨hne, hrest⟩, TimeUnit.ofChar?_eq_some.mpr rfl]
      rfl
    rcases htext with rfl | rfl
    · exact hsplit [] (Or.inl rfl)
    · exact hsplit ['\n'] (Or.inr rfl)

/-- After `strip` the groups are those of the whole text. -/
theorem matchTimeLimit_strip {text : String} {digits : List Char} {u : TimeUnit} :
    matchTimeLimit (strip text).toList = some (digits, u) ↔ Reads text digits u := by
  rw [matchTimeLimit_eq_some, Reads]
  refine and_congr_right fun hne => and_congr_right fun hdigits => ?_
  have hfeed : (strip text).toList ≠ digits ++ [u.char, '\n'] := by
    intro h
    have hspace := isSpace_of_toList_strip (t := digits ++ [u.char]) (d := '\n')
      (by rw [h, List.append_assoc]; rfl)
    exact absurd hspace (by decide)
  rw [or_iff_left hfeed]
  obtain ⟨c, digits, rfl⟩ := List.exists_cons_of_ne_nil hne
  have hhead : c :: digits ++ [u.char] = c :: (digits ++ [u.char]) := rfl
  exact toList_strip_eq_iff hhead
    (isSpace_of_isDecimal (hdigits c List.mem_cons_self)) rfl u.isSpace_char

theorem parseTimeLimitSeconds_of_reads {text : String} {digits : List Char} {u : TimeUnit}
    (h : Reads text digits u) :
    parseTimeLimitSeconds (some text) = (intOfDigits digits).map fun n => some (n * u.seconds) := by
  have hne : text ≠ "" := by
    rintro rfl
    obtain ⟨-, -, w, w', -, -, hnil⟩ := h
    simp at hnil
  have hfilter : (some text).filter (· ≠ "") = some text := by simp [hne]
  unfold parseTimeLimitSeconds
  rw [hfilter]
  dsimp only
  rw [matchTimeLimit_strip.mpr h]

/-- What is no time limit is none. -/
theorem parseTimeLimitSeconds_of_not_reads {text : String} (h : ∀ digits u, ¬Reads text digits u) :
    parseTimeLimitSeconds (some text) = .ok none := by
  unfold parseTimeLimitSeconds
  cases hfilter : (some text).filter (· ≠ "") with
  | none => rfl
  | some text' =>
    obtain rfl : text = text' := (Option.filter_eq_some_iff.mp hfilter).1 |> Option.some.inj
    dsimp only
    cases hmatch : matchTimeLimit (strip text).toList with
    | none => rfl
    | some p => exact absurd (matchTimeLimit_strip.mp hmatch) (h p.1 p.2)

theorem reads_of_eq {text : String} {n : ℕ} {u : TimeUnit} {w w' : List Char}
    (hw : ∀ c ∈ w, isSpace c = true) (hw' : ∀ c ∈ w', isSpace c = true)
    (h : text.toList = w ++ (Nat.toDigits 10 n ++ [u.char]) ++ w') :
    Reads text (Nat.toDigits 10 n) u :=
  ⟨Nat.toDigits_ne_nil, fun _ => isDecimal_of_mem_toDigits, w, w', hw, hw', h⟩

/-- **Limits.** A text is a limit of so many seconds exactly when it is digits, at most 4300, and a
unit between white space, and it raises exactly when it has more of them. Numbers that were written
are read back, whatever white space is around them. -/
theorem parseTimeLimitSeconds_iff (text : String) :
    (∀ n, parseTimeLimitSeconds (some text) = .ok (some n) ↔
      ∃ digits u, Reads text digits u ∧ digits.length ≤ 4300 ∧ n = value digits * u.seconds) ∧
    (∀ e, parseTimeLimitSeconds (some text) = .error e ↔
      ∃ digits u, Reads text digits u ∧ 4300 < digits.length ∧ e = tooManyDigits digits.length) ∧
    ∀ n u w w', (∀ c ∈ w, isSpace c = true) → (∀ c ∈ w', isSpace c = true) →
      text.toList = w ++ (Nat.toDigits 10 n ++ [TimeUnit.char u]) ++ w' →
      (Nat.toDigits 10 n).length ≤ 4300 →
      parseTimeLimitSeconds (some text) = .ok (some (n * u.seconds)) := by
  have hread : ∀ digits u, Reads text digits u → digits.length ≤ 4300 →
      parseTimeLimitSeconds (some text) = .ok (some (value digits * u.seconds)) := by
    intro digits u h hlen
    rw [parseTimeLimitSeconds_of_reads h, intOfDigits, if_pos hlen]
    rfl
  have hraise : ∀ digits u, Reads text digits u → 4300 < digits.length →
      parseTimeLimitSeconds (some text) = .error (tooManyDigits digits.length) := by
    intro digits u h hlen
    rw [parseTimeLimitSeconds_of_reads h, intOfDigits, if_neg (Nat.not_le.mpr hlen)]
    rfl
  have hsome : ∀ r, parseTimeLimitSeconds (some text) = r → r ≠ .ok none →
      ∃ digits u, Reads text digits u := by
    intro r hr hne
    by_contra hno
    rw [parseTimeLimitSeconds_of_not_reads fun digits u h => hno ⟨digits, u, h⟩] at hr
    exact hne hr.symm
  refine ⟨fun n => ⟨fun hn => ?_, ?_⟩, fun e => ⟨fun he => ?_, ?_⟩, fun n u w w' hw hw' h hlen => ?_⟩
  · obtain ⟨digits, u, h⟩ := hsome _ hn (by rintro ⟨⟩)
    rcases Nat.lt_or_ge 4300 digits.length with hlen | hlen
    · rw [hraise digits u h hlen] at hn
      cases hn
    · rw [hread digits u h hlen] at hn
      cases hn
      exact ⟨digits, u, h, hlen, rfl⟩
  · rintro ⟨digits, u, h, hlen, rfl⟩
    exact hread digits u h hlen
  · obtain ⟨digits, u, h⟩ := hsome _ he (by rintro ⟨⟩)
    rcases Nat.lt_or_ge 4300 digits.length with hlen | hlen
    · rw [hraise digits u h hlen] at he
      cases he
      exact ⟨digits, u, h, hlen, rfl⟩
    · rw [hread digits u h hlen] at he
      cases he
  · rintro ⟨digits, u, h, hlen, rfl⟩
    exact hraise digits u h hlen
  · rw [hread _ u (reads_of_eq hw hw' h) hlen, value_toDigits]

/-! ## Scripts with a limit -/

variable {F M D : Type} [FileSystem F]

/-- A process: what starting it raises, if anything, how long it takes, what it does until it ends,
and what it has done when it is stopped under a limit of so many seconds. It exits with a code and
its output, or reading the output raises. `overflowText` is the text of the `OverflowError` that
waiting for so many seconds raises. -/
structure Execution (F : Type) where
  startError : Option Exn
  duration : ℚ
  files : F
  touched : List Path
  ended : Except Exn (ℤ × String × String)
  filesAt : ℕ → F
  touchedAt : ℕ → List Path
  overflowText : ℕ → String

/-- The most whole seconds that `poll` can wait: it takes milliseconds as an `int` of 32 bits. -/
def maxWait : ℕ := (2 ^ 31 - 1) / 1000

namespace Execution

/-- `subprocess.run` without a timeout. -/
def finished (x : Execution F) : ScriptRun F where
  files := x.files
  touched := x.touched
  exit :=
    match x.startError, x.ended with
    | some e, _ => .raised e
    | none, .ok (returncode, stdout, stderr) => .exited returncode stdout stderr
    | none, .error e => .raised e

/-- What waiting so long raises. -/
def overflowError (x : Execution F) (timeout : ℕ) : Exn :=
  .exception ⟨"OverflowError", x.overflowText timeout⟩

/-- `subprocess.run` with a timeout. A process that was started is killed when its output cannot be
waited for. -/
def limited (x : Execution F) : Option ℕ → ScriptRun F
  | none => x.finished
  | some timeout =>
    if x.startError.isSome then x.finished
    else if maxWait < timeout then
      ⟨x.filesAt timeout, x.touchedAt timeout, .raised (x.overflowError timeout)⟩
    else if timeout < x.duration then ⟨x.filesAt timeout, x.touchedAt timeout, .timedOut⟩
    else x.finished

end Execution

/-- A training script, as a process on the files it finds, the dataset and the `--output` path. -/
structure Script (F : Type) [FileSystem F] where
  execute : F → String → Path → Execution F
  untouched : ∀ files dataset output p, p ∉ (execute files dataset output).touched →
    FileSystem.pathExists (execute files dataset output).files p = FileSystem.pathExists files p
  untouchedAt : ∀ files dataset output timeout p,
    p ∉ (execute files dataset output).touchedAt timeout →
      FileSystem.pathExists ((execute files dataset output).filesAt timeout) p =
        FileSystem.pathExists files p

namespace Script

/-- The run of a script by `train`: the limit is parsed when `subprocess.run` is called. -/
def runLimited (script : Script F) (files : F) (dataset : String) (output : Path)
    (timeLimit : Option String) : ScriptRun F :=
  match parseTimeLimitSeconds timeLimit with
  | .error e => ⟨files, [], .raised (.exception e)⟩
  | .ok timeout => (script.execute files dataset output).limited timeout

def program (script : Script F) : Program F where
  run := script.runLimited
  untouched files dataset output timeLimit p hp := by
    unfold runLimited at hp ⊢
    cases hparse : parseTimeLimitSeconds timeLimit with
    | error e => rfl
    | ok timeout =>
      rw [hparse] at hp
      dsimp only at hp ⊢
      cases timeout with
      | none => exact script.untouched files dataset output p hp
      | some timeout =>
        unfold Execution.limited at hp ⊢
        dsimp only at hp ⊢
        split_ifs at hp ⊢ with hstart hwait hlt
        · exact script.untouched files dataset output p hp
        · exact script.untouchedAt files dataset output timeout p hp
        · exact script.untouchedAt files dataset output timeout p hp
        · exact script.untouched files dataset output p hp

end Script

namespace Session

/-- A call of `train` for a script. -/
structure ScriptCall (F : Type) [FileSystem F] where
  name : String
  repr : String
  script : Script F
  args : TrainArgs

namespace ScriptCall

/-- The call with another limit. -/
def withLimit (call : ScriptCall F) (timeLimit : Option String) : ScriptCall F :=
  { call with args := { call.args with timeLimit } }

/-- What is called, and how it ends. -/
def train (s : Session F M D) (call : ScriptCall F) :
    Except Exn (TrainingJob M) × Session F M D :=
  s.trainScript call.name call.repr call.script.program call.args

/-- The process that a call starts, if it comes to that. -/
def execution (s : Session F M D) (call : ScriptCall F) : Option (Execution F) :=
  let modelId := s.modelIdFor call.args.modelId
  if FileSystem.isFile s.files (Path.ofString call.name) then
    match FileSystem.mkdir s.files (artifactDir modelId) with
    | (.error _, _) => none
    | (.ok (), found) => some (call.script.execute found call.args.dataset (candidatePath modelId))
  else none

/-- The job of a script that was stopped. -/
def stoppedJob (s : Session F M D) (call : ScriptCall F) : TrainingJob M :=
  .new s.nextJobId (s.modelIdFor call.args.modelId) none none
    (some s!"training script {call.name} exceeded time_limit={pyReprOption call.args.timeLimit}")

/-- The call raises, and there is no job. -/
def RaisesOnly (s : Session F M D) (call : ScriptCall F) (e : Exn) : Prop :=
  (call.train s).1 = .error e ∧ (call.train s).2.platform = s.platform ∧
    (call.train s).2.log = s.log

theorem runLimited_none (script : Script F) (files : F) (dataset : String) (output : Path) :
    script.runLimited files dataset output none = (script.execute files dataset output).finished :=
  rfl

theorem verdict_finished (name : String) (timeLimit : Option String) (candidate : Path)
    (x : Execution F) :
    verdict name timeLimit candidate x.finished = verdict name none candidate x.finished := by
  unfold verdict Execution.finished
  cases x.startError with
  | some e => rfl
  | none => cases x.ended <;> rfl

/-- A call that lets its process finish goes as without a limit. -/
theorem train_eq_of_finished {s : Session F M D} {call : ScriptCall F}
    (h : ∀ files dataset output, call.execution s = some (call.script.execute files dataset output) →
      call.script.runLimited files dataset output call.args.timeLimit =
        (call.script.execute files dataset output).finished) :
    call.train s = (call.withLimit none).train s := by
  unfold train trainScript withLimit
  unfold execution at h
  dsimp only at h ⊢
  split_ifs at h ⊢ with hfile
  · cases hmkdir : FileSystem.mkdir s.files (artifactDir (s.modelIdFor call.args.modelId)) with
    | mk r found =>
      cases r with
      | error e => rfl
      | ok u =>
        rw [hmkdir] at h
        have hrun := h _ _ _ rfl
        dsimp only [Script.program]
        rw [hrun, runLimited_none, verdict_finished]
  · rfl

theorem execution_eq_some {s : Session F M D} {call : ScriptCall F} {x : Execution F}
    (h : call.execution s = some x) :
    ∃ found, FileSystem.isFile s.files (Path.ofString call.name) = true ∧
      FileSystem.mkdir s.files (artifactDir (s.modelIdFor call.args.modelId)) = (.ok (), found) ∧
      x = call.script.execute found call.args.dataset
        (candidatePath (s.modelIdFor call.args.modelId)) := by
  unfold execution at h
  dsimp only at h
  split_ifs at h with hfile
  cases hmkdir : FileSystem.mkdir s.files (artifactDir (s.modelIdFor call.args.modelId)) with
  | mk r found =>
    cases r with
    | error e =>
      rw [hmkdir] at h
      cases h
    | ok u =>
      rw [hmkdir] at h
      exact ⟨found, hfile, rfl, (Option.some.inj h).symm⟩

theorem raisesOnly_of_runLimited {s : Session F M D} {call : ScriptCall F} {found files : F}
    {touched : List Path} {e : Exn}
    (hfile : FileSystem.isFile s.files (Path.ofString call.name) = true)
    (hmkdir : FileSystem.mkdir s.files (artifactDir (s.modelIdFor call.args.modelId)) =
      (.ok (), found))
    (hrun : call.script.runLimited found call.args.dataset
      (candidatePath (s.modelIdFor call.args.modelId)) call.args.timeLimit =
        ⟨files, touched, .raised e⟩) : call.RaisesOnly s e := by
  have htrain : call.train s = (.error e, { s with files }) := by
    unfold train trainScript
    rw [if_pos hfile, hmkdir]
    dsimp only [Script.program]
    rw [hrun]
    rfl
  unfold RaisesOnly
  rw [htrain]
  exact ⟨rfl, rfl, rfl⟩

theorem train_of_timedOut {s : Session F M D} {call : ScriptCall F} {found files : F}
    {touched : List Path}
    (hfile : FileSystem.isFile s.files (Path.ofString call.name) = true)
    (hmkdir : FileSystem.mkdir s.files (artifactDir (s.modelIdFor call.args.modelId)) =
      (.ok (), found))
    (hrun : call.script.runLimited found call.args.dataset
      (candidatePath (s.modelIdFor call.args.modelId)) call.args.timeLimit =
        ⟨files, touched, .timedOut⟩) : (call.train s).1 = .ok (call.stoppedJob s) := by
  unfold train trainScript
  rw [if_pos hfile, hmkdir]
  dsimp only [Script.program]
  rw [hrun]
  rfl

/-- How a call with a limit goes, compared with the call without one. -/
theorem train_cases (s : Session F M D) (call : ScriptCall F) :
    match call.execution s, parseTimeLimitSeconds call.args.timeLimit with
    | none, _ => call.train s = (call.withLimit none).train s
    | some _, .ok none => call.train s = (call.withLimit none).train s
    | some x, .ok (some seconds) =>
      if x.startError.isSome then call.train s = (call.withLimit none).train s
      else if maxWait < seconds then call.RaisesOnly s (x.overflowError seconds)
      else if seconds < x.duration then (call.train s).1 = .ok (call.stoppedJob s)
      else call.train s = (call.withLimit none).train s
    | some _, .error e => call.RaisesOnly s (.exception e) := by
  cases hx : call.execution s with
  | none =>
    refine train_eq_of_finished fun files dataset output h => ?_
    rw [hx] at h
    cases h
  | some x =>
    obtain ⟨found, hfile, hmkdir, hexecute⟩ := execution_eq_some hx
    cases hparse : parseTimeLimitSeconds call.args.timeLimit with
    | error e =>
      have hrun : call.script.runLimited found call.args.dataset
          (candidatePath (s.modelIdFor call.args.modelId)) call.args.timeLimit =
            ⟨found, [], .raised (.exception e)⟩ := by
        rw [Script.runLimited, hparse]
      exact raisesOnly_of_runLimited hfile hmkdir hrun
    | ok timeout =>
      have hlimited : call.script.runLimited found call.args.dataset
          (candidatePath (s.modelIdFor call.args.modelId)) call.args.timeLimit =
            x.limited timeout := by
        rw [Script.runLimited, hparse, hexecute]
      have hfree : x.limited timeout = x.finished → call.train s = (call.withLimit none).train s := by
        intro h
        refine train_eq_of_finished fun files dataset output hsome => ?_
        rw [hx] at hsome
        rw [Script.runLimited, hparse, ← Option.some.inj hsome]
        exact h
      cases timeout with
      | none => exact hfree rfl
      | some seconds =>
        dsimp only
        split_ifs with hstart hwait hlt
        · exact hfree (if_pos hstart)
        · have hraised : x.limited (some seconds) = ⟨x.filesAt seconds, x.touchedAt seconds,
              .raised (x.overflowError seconds)⟩ := by
            rw [Execution.limited, if_neg hstart, if_pos hwait]
          exact raisesOnly_of_runLimited hfile hmkdir (hlimited.trans hraised)
        · have hstopped : x.limited (some seconds) =
              ⟨x.filesAt seconds, x.touchedAt seconds, .timedOut⟩ := by
            rw [Execution.limited, if_neg hstart, if_neg hwait, if_pos hlt]
          exact train_of_timedOut hfile hmkdir (hlimited.trans hstopped)
        · refine hfree ?_
          rw [Execution.limited, if_neg hstart, if_neg hwait, if_neg hlt]

/-- A limit that is none left out. -/
def erase (call : ScriptCall F) : ScriptCall F :=
  if parseTimeLimitSeconds call.args.timeLimit = .ok none then call.withLimit none else call

theorem train_erase (s : Session F M D) (call : ScriptCall F) :
    call.erase.train s = call.train s := by
  unfold erase
  split_ifs with hnone
  · have hcases := call.train_cases s
    rw [hnone] at hcases
    cases hx : call.execution s with
    | none =>
      rw [hx] at hcases
      exact hcases.symm
    | some x =>
      rw [hx] at hcases
      exact hcases.symm
  · rfl

/-- The session after a call. -/
def step (s : Session F M D) (call : ScriptCall F) : Session F M D := (call.train s).2

/-- **Scripts with a limit.** A history of calls goes as it does when all limits that are none are
left out. In it a call with a limit goes as it does without one, unless its script takes longer: then
its job has failed. With too many digits it raises, and once its script has started also with a limit
that is too long to wait for; then there is no job. -/
theorem limits_run (files : F) (tr : List (ScriptCall F)) :
    run step (init files : Session F M D) (tr.map erase) = run step (init files) tr ∧
    ∀ pre call, pre ++ [call] <+: tr →
      let s : Session F M D := run step (init files) pre
      match call.execution s, parseTimeLimitSeconds call.args.timeLimit with
      | none, _ => call.train s = (call.withLimit none).train s
      | some _, .ok none => call.train s = (call.withLimit none).train s
      | some x, .ok (some seconds) =>
        if x.startError.isSome then call.train s = (call.withLimit none).train s
        else if maxWait < seconds then call.RaisesOnly s (x.overflowError seconds)
        else if seconds < x.duration then (call.train s).1 = .ok (call.stoppedJob s)
        else call.train s = (call.withLimit none).train s
      | some _, .error e => call.RaisesOnly s (.exception e) := by
  refine ⟨?_, fun pre call _ => call.train_cases _⟩
  induction tr using List.reverseRecOn with
  | nil => rfl
  | append_singleton tr call ih =>
    rw [List.map_append, List.map_singleton, run_snoc, run_snoc, ih]
    exact congrArg Prod.snd (call.train_erase _)

end ScriptCall

end Session

end PyStreamAI
