import Johnny.Effectors.VerdictLine

/-!
# The sandbox

A snippet runs in the process of its runner, which keeps a copy of the container's stdout for the
verdict. The snippet can write to every descriptor of that process, the copies included, and
whatever comes to the container's stdout is what the launcher relays. The launcher is modelled from
the started container on.
-/
namespace Johnny

/-! ### Snippets -/

inductive ExitCode where
  | none
  | number (n : ℤ)
  /-- Anything else, as `str` shows it. -/
  | other (text : String)

inductive RunEnding where
  | returns
  | raises (type message traceback : String)
  | systemExit (code : ExitCode)
  /-- The alarm of the runner, or its limit of processor time. -/
  | timesOut
  /-- The process is gone, by `os._exit` or a signal, before the runner goes on. -/
  | exits (status : UInt8)
  /-- The process is there when the launcher's wait is over. -/
  | wedged

/-- A snippet that ran, with the bytes of each write and its descriptor in their order. -/
structure Snippet where
  writes : List (ℕ × List UInt8)
  ending : RunEnding
  ranMs : ℕ
  waitedMs : ℕ
  clocked : ranMs < 2 ^ 63 ∧ waitedMs < 2 ^ 63

namespace Snippet

def through (s : Snippet) (descriptors : List ℕ) : List UInt8 :=
  s.writes.flatMap fun e => if e.1 ∈ descriptors then e.2 else []

/-- `out_f`, which was the first free descriptor behind the verdict's, is also descriptor 1. -/
def outFile (s : Snippet) : List UInt8 := s.through [1, 4]

/-- `err_f`, also descriptor 2, with the traceback that the runner writes there. -/
def errFile (s : Snippet) : List UInt8 :=
  s.through [2, 5] ++ match s.ending with
    | .raises _ _ traceback => Utf8.encode traceback.toList
    | _ => []

/-- The container's stdout, in `_VERDICT_FD` and `saved_out`. -/
def containerOut (s : Snippet) : List UInt8 := s.through [3, 6]

/-- The container's stderr, in `saved_err`. -/
def containerErr (s : Snippet) : List UInt8 := s.through [7]

end Snippet

/-! ### The runner -/

def readCapped (outputMax : ℕ) (file : List UInt8) : String × Bool :=
  let raw := file.take (outputMax + 1)
  let truncated := decide (outputMax < raw.length)
  let text := decodeOutput (raw.take outputMax)
  (if truncated then text ++ "\n…[output truncated]" else text, truncated)

def errorOf {K : Type} (type message : String) : Option (Dict K) :=
  some [("type", .str type), ("message", .str message)]

def messageOf (text : String) : String := String.ofList (text.toList.take 2000)

/-- What the clauses around the snippet make of its ending, if the runner goes on. -/
def RunEnding.result {K : Type} (timeout : ℤ) : RunEnding → Option (SandboxVerdict K)
  | .returns => some { ok := true }
  | .raises type message _ =>
    some { ok := false, exitCode := 1, error := errorOf type (messageOf message) }
  | .systemExit .none => some { ok := true }
  | .systemExit (.number n) => some { ok := n == 0, exitCode := n }
  | .systemExit (.other text) =>
    some { ok := false, exitCode := 1, error := errorOf "SystemExit" (messageOf text) }
  | .timesOut =>
    some { ok := false, timedOut := true, exitCode := 124,
           error := errorOf "Timeout" ("exceeded " ++ toString timeout ++ "s of CPU/wall time") }
  | .exits _ => none
  | .wedged => none

namespace SandboxVerdict
variable {K : Type}

def fields (v : SandboxVerdict K) : Dict K :=
  [("ok", .bool v.ok), ("timed_out", .bool v.timedOut), ("exit_code", .int v.exitCode),
    ("stdout", .str v.stdout), ("stderr", .str v.stderr), ("truncated", .bool v.truncated),
    ("error", (v.error.map Json.obj).getD .null), ("duration_ms", .int v.durationMs)]

/-- `sys.get_int_max_str_digits()`: a longer integer is not written. -/
def maxStrDigits : ℕ := 4300

@[irreducible] def writable (n : ℤ) : Bool := decide (n.natAbs < 10 ^ maxStrDigits)

/-- The last resort of the runner, when the verdict itself is not written. -/
def runnerError : SandboxVerdict K where
  ok := false
  exitCode := 1
  error := errorOf "RunnerError" ("Exceeds the limit (4300 digits) for integer string conversion; " ++
    "use sys.set_int_max_str_digits() to increase the limit")

end SandboxVerdict

/-- A container that was waited for, if it ended within the launcher's wait. -/
structure Container where
  status : Option UInt8
  out : List UInt8
  err : List UInt8
  waitedMs : ℕ

def emit {K : Type} (f : NumberText K) (v : SandboxVerdict K) : List UInt8 :=
  Utf8.encode ((dumps f (.obj v.fields)).toList ++ ['\n'])

namespace Snippet
variable {K : Type}

def told (s : Snippet) (outputMax : ℕ) (v : SandboxVerdict K) : SandboxVerdict K :=
  let out := readCapped outputMax s.outFile
  let err := readCapped outputMax s.errFile
  { v with durationMs := s.ranMs, stdout := out.1, stderr := err.1, truncated := out.2 || err.2 }

/-- The runner's `main`, up to the end of its container. -/
def container (s : Snippet) (f : NumberText K) (outputMax : ℕ) (timeout : ℤ) : Container :=
  match s.ending.result (K := K) timeout with
  | some v =>
    let verdict := if SandboxVerdict.writable v.exitCode then s.told outputMax v else .runnerError
    { status := some 0, out := s.containerOut ++ emit f verdict, err := s.containerErr,
      waitedMs := s.waitedMs }
  | none =>
    { status := match s.ending with
        | .exits status => some status
        | _ => none
      out := s.containerOut, err := s.containerErr, waitedMs := s.waitedMs }

end Snippet

/-! ### The launcher -/

/-- What the launcher prints for a run that left no verdict of its own. -/
def printfVerdict (timedOut : Bool) (exitCode : ℕ) (stderr : List UInt8) (type message : String)
    (durationMs : ℕ) : List UInt8 :=
  Utf8.encode ("\x7b\"ok\":false,\"timed_out\":" ++ (if timedOut then "true" else "false") ++
      ",\"exit_code\":" ++ toString exitCode ++ ",\"stdout\":\"\",\"stderr\":\"").toList ++
    stderr ++
    Utf8.encode ("\",\"error\":\x7b\"type\":\"" ++ type ++ "\",\"message\":\"" ++ message ++
      "\"\x7d,\"duration_ms\":" ++ toString durationMs ++ "\x7d\n").toList

def wedgedVerdict (timeout : ℤ) (durationMs : ℕ) : List UInt8 :=
  printfVerdict true 124
    (Utf8.encode ("killed: wedged past the " ++ toString timeout ++ "s limit (hard backstop)").toList)
    "Timeout" ("sandbox exceeded its " ++ toString timeout ++ "s limit and was force-killed") durationMs

def killedVerdict (exitCode durationMs : ℕ) : List UInt8 :=
  printfVerdict false exitCode
    (Utf8.encode "killed by SIGKILL — memory (OOM) or resource cap".toList) "Killed"
    "sandbox terminated by the kernel resource guard (memory/pids/cpu cap)" durationMs

/-- `tr '\n\r\t' '   '`. -/
def trBlank (b : UInt8) : UInt8 := if b = 10 ∨ b = 13 ∨ b = 9 then 32 else b

/-- `sed 's/\\/\\\\/g; s/"/\\"/g'`. -/
def sedEscape (bytes : List UInt8) : List UInt8 := bytes.flatMap (Utf8.markByte [34, 92] 92)

/-- The start of a container's stderr, for a line. The shell drops its zero bytes. -/
def errText (err : List UInt8) : List UInt8 :=
  (sedEscape ((err.take 1500).map trBlank)).filter (· ≠ 0)

def noVerdict (exitCode : ℕ) (err : List UInt8) (durationMs : ℕ) : List UInt8 :=
  printfVerdict false exitCode (errText err) "SandboxError"
    ("runner produced no verdict (exit=" ++ toString exitCode ++ ")") durationMs

def runSandbox (timeout : ℤ) (c : Container) : List UInt8 :=
  match c.status with
  | none => wedgedVerdict timeout c.waitedMs
  | some status =>
    if status = 0 ∧ c.out ≠ [] then c.out
    else if status = 137 ∨ status = 139 then killedVerdict status.toNat c.waitedMs
    else if c.out ≠ [] then c.out
    else noVerdict status.toNat c.err c.waitedMs

/-- `"$(cat)"` and `_read_source`. -/
def readSource (stdin : List UInt8) : String :=
  decodeOutput ((stdin.filter (· ≠ 0)).reverse.dropWhile (· = 10)).reverse

structure Sandbox (K ω : Type) where
  numbers : NumberText K
  outputMax : ℕ
  interpret : String → ℤ → ω → Snippet × ω

namespace Sandbox
variable {K ω : Type}

def launch (b : Sandbox K ω) (stdin : List UInt8) (seconds : ℤ) (w : ω) : LauncherEnd × ω :=
  let (s, w) := b.interpret (readSource stdin) seconds w
  (.ended 0 (runSandbox seconds (s.container b.numbers b.outputMax seconds)) [], w)

def serving (b : Sandbox K ω) (t : CodeExecTool K ω) : CodeExecTool K ω :=
  { t with runner := { t.runner with launch := b.launch } }

end Sandbox

end Johnny
