import JudgeIt.Types

/-!
# From sandbox metadata to a result

The pure half of `ExecutionService`: reading the metadata `isolate` wrote about a run, deciding
from it how the test ended, and the results that stand for a failure before any test ran. Every
failure of the second kind is one error result per test, so the list of results has the length of
the list of tests on every path.
-/

namespace JudgeIt

open JsString

/-- The metadata file as a record: later lines override earlier ones. -/
abbrev RawMeta := List (JsString × JsString)

/-- The key and value of a line, when it has a colon that is not its first character. -/
def metaLine (line : JsString) : Option (JsString × JsString) :=
  match line.idxOf? colon with
  | some colonIdx =>
    if 0 < colonIdx then some (trim (line.take colonIdx), trim (line.drop (colonIdx + 1))) else none
  | none => none

/-- The record `raw` after all lines, the last one first. -/
def rawMeta (content : JsString) : RawMeta := ((content.splitOn lf).filterMap metaLine).reverse

/-- `raw[key]`. -/
def RawMeta.get (raw : RawMeta) (key : JsString) : Option JsString := raw.lookup key

/-- `a || b` for a string that may be `undefined`. -/
def orElse (a : Option JsString) (b : JsString) : JsString :=
  match a with
  | some (u :: s) => u :: s
  | _ => b

/-- `parseInt(a) || b`, where `NaN` and `0` are falsy. -/
def intOr (a : Option JsString) (b : ℤ) : ℤ :=
  match a.bind parseInt with
  | some n => if n = 0 then b else n
  | none => b

/-- `parseMetaFile(content)`. -/
def parseMetaFile (content : JsString) : IsolateMeta :=
  let raw := rawMeta content
  { status := orElse (raw.get "status") (if raw.get "exitcode" = some "0" then "OK" else "RE")
    time := ((raw.get "time").bind parseFloat).getD 0
    wallTime := ((raw.get "time-wall").bind parseFloat).getD 0
    memory := intOr (raw.get "max-rss") (intOr (raw.get "cg-mem") 0)
    exitCode := intOr (raw.get "exitcode") 0
    signal := intOr (raw.get "exitsig") (intOr (raw.get "killed") 0)
    message := orElse (raw.get "message") "" }

/-- `getSignalName(signal)`. -/
def getSignalName (signal : ℤ) : JsString :=
  if signal = 6 then "SIGABRT (Aborted)"
  else if signal = 8 then "SIGFPE (Floating point exception)"
  else if signal = 9 then "SIGKILL (Killed)"
  else if signal = 11 then "SIGSEGV (Segmentation fault)"
  else if signal = 13 then "SIGPIPE (Broken pipe)"
  else if signal = 24 then "SIGXCPU (CPU time limit exceeded)"
  else ofString "Signal " ++ ofInt signal

/-- `stderr || undefined`. -/
def orUndefined (stderr : JsString) : Option JsString := if stderr = [] then none else some stderr

/-- `buildResultFromMeta(meta, output, stderr)`. -/
def buildResultFromMeta (info : IsolateMeta) (output stderr : JsString) : ExecutionResult :=
  let base : ExecutionResult :=
    { success := false
      output := some (trim output)
      time := some info.time
      wallTime := some info.wallTime
      memory := some info.memory
      exitCode := some info.exitCode
      status := .RE }
  if info.status = ofString "OK" ∨ info.status = ofString "RE" then
    if info.exitCode = 0 then { base with success := true, status := .OK }
    else
      { base with
        error := some (orElse (some stderr) (ofString "Exit code: " ++ ofInt info.exitCode))
        status := .RE
        stderr := orUndefined stderr }
  else if info.status = ofString "TO" then
    { base with error := some "Time Limit Exceeded", status := .TLE }
  else if info.status = ofString "SG" then
    if info.signal = 9 ∧ ofString "memory" <:+: info.message then
      { base with error := some "Memory Limit Exceeded", status := .MLE }
    else
      { base with
        error := some (ofString "Runtime Error: " ++ getSignalName info.signal)
        status := .RE
        signal := some info.signal
        stderr := orUndefined stderr }
  else if info.status = ofString "XX" then
    { base with error := some "Internal sandbox error", status := .SE }
  else
    { base with error := some (orElse (some info.message) "Unknown error"), status := .SE }

/-- `buildErrorResults(testCases, error, status)`. -/
def buildErrorResults (testCases : List TestCase) (error : JsString) (status : Status) :
    List ExecutionResult :=
  testCases.map fun tc ↦
    { testCaseName := some tc.name, success := false, error := some error, status := status }

/-- `truncate(text, maxLength)`. -/
def truncate (text : JsString) (maxLength : ℕ) : JsString :=
  if maxLength < text.length then text.take maxLength ++ ofString "\n... (truncated)" else text

/-- `{ ...this.defaultConfig, ...partial }`. -/
def mergeConfig (config : PartialConfig) : ExecutionConfig where
  timeLimit := config.timeLimit.getD 2
  memoryLimit := config.memoryLimit.getD 256000
  stackLimit := config.stackLimit.getD 256000
  processes := config.processes.getD 1

/-- The largest source `validateCode` lets through, in code units. -/
def maxSize : ℕ := 64 * 1024

/-- `validateCode(code)`, which hands the code on when it does not throw. -/
def validateCode : Option JsString → Except JsString JsString
  | none => .error "TypeError: Cannot read properties of undefined (reading 'length')"
  | some code =>
    if maxSize < code.length then .error "Error: Code size exceeds 64KB limit" else .ok code

@[simp] theorem output_buildResultFromMeta (info : IsolateMeta) (output stderr : JsString) :
    (buildResultFromMeta info output stderr).output = some (trim output) := by
  simp only [buildResultFromMeta]
  split_ifs <;> rfl

@[simp] theorem length_buildErrorResults (testCases : List TestCase) (error : JsString)
    (status : Status) : (buildErrorResults testCases error status).length = testCases.length :=
  List.length_map _

theorem validateCode_eq_ok_iff {code : Option JsString} {text : JsString} :
    validateCode code = .ok text ↔ code = some text ∧ text.length ≤ maxSize := by
  cases code with
  | none => simp [validateCode]
  | some code =>
    rw [validateCode]
    split
    · next h =>
      simp only [reduceCtorEq, Option.some.injEq, false_iff, not_and, not_le]
      rintro rfl
      exact h
    · next h =>
      simp only [Except.ok.injEq, Option.some.injEq]
      exact ⟨fun he ↦ ⟨he, he ▸ not_lt.mp h⟩, And.left⟩

end JudgeIt
