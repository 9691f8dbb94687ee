import Johnny.Effectors.Tools
import Johnny.Lib.Utf8
import Mathlib.Data.Rat.Floor

/-!
# Running code

The tool gives a snippet to the launcher of the sandbox and reads the last line of what the
launcher printed as the verdict. A launcher that comes to no line is turned into a failed result;
a line that is no verdict is not.
-/
namespace Johnny

structure SandboxVerdict (K : Type) where
  ok : Bool
  timedOut : Bool := false
  exitCode : ℤ := 0
  stdout : String := ""
  stderr : String := ""
  truncated : Bool := false
  error : Option (Dict K) := none
  durationMs : ℤ := 0

/-- How a started process ends for the one that waits for it. -/
inductive LauncherEnd where
  /-- It could not be started: an `OSError` or a `ValueError` with this text. -/
  | notStarted (text : String)
  /-- It did not end within the outer wait, and was killed. -/
  | overdue
  | ended (exitCode : ℤ) (stdout stderr : List UInt8)

def lastJsonLine (text : String) : Option String :=
  ((splitLines text).reverse.find? fun line => strip line ≠ "").map strip

/-! ### The runner -/

structure SubprocessSandboxRunner (K ω : Type) where
  /-- The launcher with the bytes on its stdin and the seconds for its argument. -/
  launch : List UInt8 → ℤ → ω → LauncherEnd × ω
  outerBuffer : K

def sandboxRunError (text : String) : Failure := .exception (.other "SandboxRunError") text

/-- `except SandboxRunError`. -/
def Failure.isSandboxRun : Failure → Bool
  | .exception (.other name) _ => name == "SandboxRunError"
  | _ => false

/-- `stdout.decode("utf-8", errors="replace")`. -/
def decodeOutput (stdout : List UInt8) : String := String.ofList (Utf8.decode stdout)

namespace SubprocessSandboxRunner
variable {K ω : Type} [Field K] [LinearOrder K] [FloorRing K]

/-- The verdict line, or the error, that the end of the launcher comes to. -/
def verdictLine (r : SubprocessSandboxRunner K ω) (timeoutSeconds : ℤ) :
    LauncherEnd → Except Failure String
  | .notStarted text => .error (sandboxRunError ("could not start the sandbox launcher: " ++ text))
  | .overdue =>
    .error (sandboxRunError ("sandbox launcher did not return within " ++
      toString (roundHalfEven ((timeoutSeconds : K) + r.outerBuffer)) ++ "s"))
  | .ended _ stdout _ =>
    match lastJsonLine (decodeOutput stdout) with
    | none => .error (sandboxRunError "sandbox launcher produced no verdict line")
    | some verdict => .ok verdict

def run (r : SubprocessSandboxRunner K ω) (code : String) (timeoutSeconds : ℤ) :
    Prog Failure ω String := fun w =>
  let (ended, w) := r.launch (Utf8.encode code.toList) timeoutSeconds w
  (r.verdictLine timeoutSeconds ended, w)

end SubprocessSandboxRunner

/-! ### The tool -/

structure CodeExecArgs where
  code : String
  timeoutSeconds : Option ℤ := none
  nonempty : 1 ≤ code.length
  within : ∀ seconds ∈ timeoutSeconds, 1 ≤ seconds ∧ seconds ≤ 60

theorem CodeExecArgs.within_none : ∀ seconds ∈ (none : Option ℤ), 1 ≤ seconds ∧ seconds ≤ 60 := by
  intro _ given
  cases given

def CodeExecArgs.codeChars (args : CodeExecArgs) : ℕ := args.code.length

structure CodeExecTool (K ω : Type) where
  runner : SubprocessSandboxRunner K ω
  /-- `SandboxVerdict.model_validate_json`, or the text of its `ValidationError`. -/
  modelValidateJson : String → Except String (SandboxVerdict K)
  /-- `str` of a value that is not a text. -/
  showValue : Json K → String
  defaultTimeout : ℤ := 10
  maxCodeChars : ℕ := 50000

namespace CodeExecTool
variable {K ω : Type}

def parseSandboxVerdict (t : CodeExecTool K ω) (line : String) :
    Except Failure (SandboxVerdict K) :=
  match t.modelValidateJson line with
  | .error text => .error (.exception .validationError text)
  | .ok verdict => .ok verdict

def summarise (t : CodeExecTool K ω) (verdict : SandboxVerdict K) : String :=
  if verdict.ok then "ran code in the sandbox (" ++ toString verdict.durationMs ++ "ms)"
  else if verdict.timedOut then "code timed out in the sandbox"
  else
    let kind := match dictGet (verdict.error.getD []) "type" with
      | none => "error"
      | some (.str name) => name
      | some value => t.showValue value
    "code failed in the sandbox (" ++ kind ++ ")"

def tooLarge (t : CodeExecTool K ω) (args : CodeExecArgs) : ToolResult K where
  success := false
  output := [("error", .str "too_large"), ("chars", .int args.codeChars)]
  summary := "snippet too large (" ++ toString args.codeChars ++ " > " ++
    toString t.maxCodeChars ++ " chars)"

/-- The result of a run without a verdict. -/
def unavailable (e : Failure) : ToolResult K where
  success := false
  output := [("error", .str "sandbox_unavailable"), ("reason", .str e.text)]
  summary := "could not run code in the sandbox — " ++ e.text

def verdictResult (t : CodeExecTool K ω) (verdict : SandboxVerdict K) : ToolResult K where
  success := verdict.ok
  output := [("stdout", .str verdict.stdout), ("stderr", .str verdict.stderr),
    ("exit_code", .int verdict.exitCode), ("timed_out", .bool verdict.timedOut),
    ("truncated", .bool verdict.truncated), ("error", (verdict.error.map Json.obj).getD .null),
    ("duration_ms", .int verdict.durationMs)]
  summary := t.summarise verdict

/-- The seconds that the launcher is given. -/
def timeout (t : CodeExecTool K ω) (args : CodeExecArgs) : ℤ :=
  args.timeoutSeconds.getD t.defaultTimeout

section runs
variable [Field K] [LinearOrder K] [FloorRing K]

def run (t : CodeExecTool K ω) (args : CodeExecArgs) : Prog Failure ω (ToolResult K) :=
  if t.maxCodeChars < args.codeChars then pure (t.tooLarge args)
  else Prog.rescue Failure.isSandboxRun
    (do
      let line ← t.runner.run args.code (t.timeout args)
      let verdict ← Prog.reraise (t.parseSandboxVerdict line)
      pure (t.verdictResult verdict))
    fun e => pure (unavailable e)

/-! ### What a run comes to -/

/-- What the launcher does with the snippet. -/
def launched (t : CodeExecTool K ω) (args : CodeExecArgs) (w : ω) : LauncherEnd :=
  (t.runner.launch (Utf8.encode args.code.toList) (t.timeout args) w).1

/-- The last line that is not empty, of the output of a launcher that ended in time. -/
def lastLine : LauncherEnd → Option String
  | .ended _ stdout _ => lastJsonLine (decodeOutput stdout)
  | _ => none

/-- The run returns, and with success only where the last line parsed as a verdict that is ok. -/
def Graceful (t : CodeExecTool K ω) (args : CodeExecArgs) (w : ω) : Prop :=
  ∃ result, (t.run args w).1 = .ok result ∧ (result.success = true →
    ∃ line verdict, lastLine (t.launched args w) = some line ∧
      t.parseSandboxVerdict line = .ok verdict ∧ verdict.ok = true)

variable {t : CodeExecTool K ω} {args : CodeExecArgs} {w : ω}

theorem run_of_large (large : t.maxCodeChars < args.codeChars) :
    t.run args w = (.ok (t.tooLarge args), w) := by
  unfold run
  rw [if_pos large]
  rfl

/-- Without a line there is an error, of the class that the tool catches. -/
theorem verdictLine_of_none (r : SubprocessSandboxRunner K ω) (seconds : ℤ) {ended : LauncherEnd}
    (none : lastLine ended = none) :
    ∃ text, r.verdictLine seconds ended = .error (sandboxRunError text) := by
  cases ended with
  | notStarted text => exact ⟨_, rfl⟩
  | overdue => exact ⟨_, rfl⟩
  | ended exitCode stdout stderr =>
      have none : lastJsonLine (decodeOutput stdout) = .none := none
      simp only [SubprocessSandboxRunner.verdictLine, none]
      exact ⟨_, rfl⟩

theorem verdictLine_of_some {r : SubprocessSandboxRunner K ω} {seconds : ℤ} {ended : LauncherEnd}
    {line : String} (found : lastLine ended = some line) : r.verdictLine seconds ended = .ok line := by
  cases ended with
  | notStarted text => cases found
  | overdue => cases found
  | ended exitCode stdout stderr =>
      have found : lastJsonLine (decodeOutput stdout) = some line := found
      simp only [SubprocessSandboxRunner.verdictLine, found]

theorem run_of_none (small : ¬ t.maxCodeChars < args.codeChars)
    (none : lastLine (t.launched args w) = none) :
    ∃ e, (t.run args w).1 = .ok (unavailable e) := by
  obtain ⟨text, line⟩ := verdictLine_of_none t.runner (t.timeout args) none
  have inner : (do
      let line ← t.runner.run args.code (t.timeout args)
      let verdict ← Prog.reraise (t.parseSandboxVerdict line)
      pure (t.verdictResult verdict)) w = (.error (sandboxRunError text),
        (t.runner.launch (Utf8.encode args.code.toList) (t.timeout args) w).2) :=
    Prog.bind_of_error (Prod.ext line rfl)
  unfold run
  rw [if_neg small, Prog.rescue_of_caught inner rfl]
  exact ⟨_, rfl⟩

theorem run_of_line (small : ¬ t.maxCodeChars < args.codeChars) {line : String}
    (found : lastLine (t.launched args w) = some line) :
    (t.run args w).1 = (t.parseSandboxVerdict line).map t.verdictResult := by
  have ran : t.runner.run args.code (t.timeout args) w = (.ok line,
      (t.runner.launch (Utf8.encode args.code.toList) (t.timeout args) w).2) :=
    Prod.ext (verdictLine_of_some found) rfl
  have inner := Prog.bind_of_ok (f := fun line => do
    let verdict ← Prog.reraise (t.parseSandboxVerdict line)
    pure (t.verdictResult verdict)) ran
  unfold run
  rw [if_neg small]
  cases read : t.modelValidateJson line with
  | error text =>
      have parsed : t.parseSandboxVerdict line = .error (.exception .validationError text) := by
        rw [parseSandboxVerdict, read]
      rw [parsed] at inner ⊢
      rw [Prog.rescue_of_passed inner rfl]
      rfl
  | ok verdict =>
      have parsed : t.parseSandboxVerdict line = .ok verdict := by
        rw [parseSandboxVerdict, read]
      rw [parsed] at inner ⊢
      rw [Prog.rescue_of_ok inner]
      rfl

/-- The tool returns exactly where the line it finds, if it looks for one and finds one, is a
verdict. -/
theorem code_exec_returns_iff (t : CodeExecTool K ω) (args : CodeExecArgs) (w : ω) :
    t.Graceful args w ↔ t.maxCodeChars < args.codeChars ∨
      ∀ line, lastLine (t.launched args w) = some line →
        ∃ verdict, t.modelValidateJson line = .ok verdict := by
  by_cases large : t.maxCodeChars < args.codeChars
  · refine iff_of_true ⟨t.tooLarge args, ?_, nofun⟩ (.inl large)
    rw [run_of_large large]
  rw [or_iff_right large]
  cases found : lastLine (t.launched args w) with
  | none =>
      obtain ⟨e, returned⟩ := run_of_none large found
      exact iff_of_true ⟨_, returned, nofun⟩ nofun
  | some line =>
      unfold Graceful
      rw [run_of_line large found]
      cases read : t.modelValidateJson line with
      | error text =>
          refine iff_of_false ?_ fun valid => ?_
          · rintro ⟨result, returned, -⟩
            rw [parseSandboxVerdict, read] at returned
            cases returned
          · obtain ⟨verdict, valid⟩ := valid line rfl
            cases read.symm.trans valid
      | ok verdict =>
          have parsed : t.parseSandboxVerdict line = .ok verdict := by
            rw [parseSandboxVerdict, read]
          refine iff_of_true ⟨t.verdictResult verdict, ?_, fun ok => ?_⟩ ?_
          · rw [parsed]
            rfl
          · exact ⟨line, verdict, found, parsed, ok⟩
          · rintro _ ⟨⟩
            exact ⟨verdict, read⟩

end runs

/-! ### A line that is no verdict -/

namespace NoVerdict

/-- The snippet writes to the descriptor of the verdict and leaves; the launcher relays it. -/
def args : CodeExecArgs where
  code := "import os; os.write(3, b'x'); os._exit(1)"
  nonempty := by decide
  within := CodeExecArgs.within_none

def runner : SubprocessSandboxRunner ℚ Unit where
  launch _ _ w := (.ended 0 (Utf8.encode ['x']) [], w)
  outerBuffer := 8

def invalidJson : String := "Invalid JSON: expected value at line 1 column 1"

def tool : CodeExecTool ℚ Unit where
  runner := runner
  modelValidateJson _ := .error invalidJson
  showValue _ := ""

end NoVerdict

open NoVerdict in
/-- The line is not JSON, and what its validation raises goes through the clause of the tool. -/
theorem no_verdict_raises :
    ((tool.run args ()).1.map fun _ => ()) = .error (.exception .validationError invalidJson) ∧
      ¬ tool.Graceful args () := by
  have raised : ((tool.run args ()).1.map fun _ => ()) =
      .error (.exception .validationError invalidJson) := by
    decide +kernel
  refine ⟨raised, ?_⟩
  rintro ⟨result, returned, -⟩
  rw [returned] at raised
  cases raised

end CodeExecTool
end Johnny
