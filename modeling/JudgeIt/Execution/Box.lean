import JudgeIt.Async.Handler
import JudgeIt.Execution.Output

/-!
# A box with its files

A box is a directory that the sandbox sets up and removes, and in between every command finds the
files that were left before it. The submitted program and its compiler are functions of these files,
and the program also of its standard input: they may read and write any of them.

`Machine.respond` answers the calls of the execution service from such a box, and
`result_runTest` evaluates one test against it: what the test comes to, and what files it leaves.
-/

namespace JudgeIt

open Async Judging JsString

/-! ## The machine -/

/-- The files of a box, by name. -/
abbrev Files := JsString → Option JsString

/-- What a run leaves: the files of the box, its output and error file among them, the metadata of
the sandbox, and what the command settles with. -/
structure Report where
  files : Files
  metadata : JsString
  outcome : Except JsString JsString

/-- A submitted program and its compiler, with what the machine adds: the path of the box and the
clock. -/
structure Machine where
  boxPath : JsString
  clock : ℕ → ℤ
  compile : Files → Except JsString JsString × Files
  run : Files → JsString → Report

/-- A box, the metadata files beside it, and how often the clock was read. -/
structure Box where
  files : Files
  metadata : MetaFile → Option JsString
  ticks : ℕ

/-- The box without files. -/
def Box.cleared (s : Box) : Box := { s with files := fun _ ↦ none }

/-- What `readFile` settles with. -/
def findFile : Option JsString → Except JsString JsString
  | some content => .ok content
  | none => .error "Error: ENOENT: no such file or directory"

/-- What `cat` settles with. -/
def catFile : Option JsString → Except JsString JsString
  | some content => catStdout content
  | none => .error "cat: No such file or directory"

/-- The shell empties the two files it sends the output to before it starts the program. -/
def redirected (files : Files) : Files :=
  Function.update (Function.update files "output.txt" (some [])) "error.txt" (some [])

/-- The standard input. -/
def InputRedirect.stdin (files : Files) : InputRedirect → JsString
  | inputFile => (files "input.txt").getD []
  | devNull => []

/-- What each call is answered with, and what becomes of the box. The execution service makes no
calls to the database, to storage or to the queue. -/
def Machine.respond (m : Machine) : (op : Call) → Box → op.Res × Box
  | .exec (.init _), s => (.ok m.boxPath, s.cleared)
  | .exec (.cleanup _), s => (.ok [], s.cleared)
  | .exec (.compile _), s =>
    let compiled := m.compile s.files
    (compiled.1, { s with files := compiled.2 })
  | .exec (.run command), s =>
    let report := m.run (redirected s.files) (command.inputRedirect.stdin s.files)
    (report.outcome, { s with
      files := report.files
      metadata := Function.update s.metadata command.metaFile (some report.metadata) })
  | .exec (.chmod _), s => (.ok [], s)
  | .exec (.cat file), s => (catFile (s.files file.name), s)
  | .exec (.catMeta file), s => (catFile (s.metadata file), s)
  | .exec (.rmMeta file), s =>
    (.ok [], { s with metadata := Function.update s.metadata file none })
  | .writeFile file content, s =>
    (.ok (), { s with files := Function.update s.files file.name (some content) })
  | .readFile file, s => (findFile (s.files file.name), s)
  | .now, s => (m.clock s.ticks, { s with ticks := s.ticks + 1 })
  | .createSubmission _, s => (.error [], s)
  | .timestamp, s => ([], s)
  | .send _, s => (.lost [], s)
  | .getTestCases _, s => (.error [], s)
  | .findProblem _, s => (.error [], s)
  | .getTime _, s => (none, s)
  | .updateSubmission .., s => (.error [], s)
  | .createMany _, s => (.error [], s)
  | .observe _, s => (.error [], s)

/-! ## One test -/

/-- The files after the input of a test was written. -/
def withInput (files : Files) (testCase : TestCase) : Files :=
  match testCase.input with
  | some input => Function.update files "input.txt" (some input)
  | none => files

namespace Machine

variable (m : Machine)

/-- The run of a test in a box. -/
def report (testCase : TestCase) (files : Files) : Report :=
  m.run (redirected (withInput files testCase)) (testCase.input.getD [])

/-- What a test comes to in a box. -/
def testResult (testCase : TestCase) (files : Files) : ExecutionResult :=
  let report := m.report testCase files
  { readResult (catStdout report.metadata) (catFile (report.files "output.txt"))
      (catFile (report.files "error.txt")) with testCaseName := some testCase.name }

/-- The files a test leaves. -/
def filesAfter (testCase : TestCase) (files : Files) : Files := (m.report testCase files).files

variable {m} {s : Box} {boxId : ℕ} {langConfig : LanguageConfig} {source : JsString}
  {testCase : TestCase} {config : ExecutionConfig} {boxPath : JsString} {metaFile : MetaFile}

@[simp] theorem result_exec {command : Command} :
    (exec command).result m.respond s = m.respond (.exec command) s := by
  rw [exec, Program.result_request_bind, Program.result_ofExcept]

@[simp] theorem result_readFile {file : BoxFile} :
    (readFile file).result m.respond s = (findFile (s.files file.name), s) := by
  rw [readFile, Program.result_request_bind, Program.result_ofExcept]
  rfl

theorem stdin_runCommand : (runCommand boxId langConfig source testCase config
    metaFile).inputRedirect.stdin (withInput s.files testCase) = testCase.input.getD [] := by
  rw [runCommand, withInput]
  cases hinput : testCase.input with
  | none => rfl
  | some input =>
    by_cases hempty : input = []
    · simp [hempty, InputRedirect.stdin]
    · simp [hempty, InputRedirect.stdin]

theorem result_writeInput : (writeInput boxPath testCase).result m.respond s
    = (.ok (), { s with files := withInput s.files testCase }) := by
  rw [writeInput, withInput]
  cases testCase.input <;> rfl

theorem result_readBoxFile {filename : JsString} :
    (readBoxFile boxPath filename).result m.respond s
      = (.ok (boxContent (catFile (s.files filename))), s) := by
  have hcat : (exec (.cat ⟨boxPath, filename⟩)).result m.respond s
      = (catFile (s.files filename), s) := result_exec
  rw [readBoxFile, Program.tryCatch, Program.result_attempt_bind hcat]
  cases catFile (s.files filename) <;> rfl

theorem result_readMeta : (readMeta metaFile).result m.respond s
    = (.ok ((catFile (s.metadata metaFile)).toOption.map parseMetaFile), s) := by
  have hcat : (exec (.catMeta metaFile)).result m.respond s = (catFile (s.metadata metaFile), s) :=
    result_exec
  rw [readMeta, Program.result_attempt_bind hcat]
  cases catFile (s.metadata metaFile) <;> rfl

theorem result_runInBox :
    (runInBox boxId langConfig source testCase config boxPath metaFile).result m.respond s
      = (.ok (readResult (catStdout (m.report testCase s.files).metadata)
          (catFile ((m.report testCase s.files).files "output.txt"))
          (catFile ((m.report testCase s.files).files "error.txt"))),
        { s with
          files := m.filesAfter testCase s.files
          metadata := Function.update s.metadata metaFile
            (some (m.report testCase s.files).metadata) }) := by
  set report := m.report testCase s.files with hreport
  set written : Box := { s with files := withInput s.files testCase } with hwritten
  set ran : Box := { s with
    files := report.files
    metadata := Function.update s.metadata metaFile (some report.metadata) } with hran
  have hrun : (exec (.run (runCommand boxId langConfig source testCase config
      metaFile))).result m.respond written = (report.outcome, ran) := by
    rw [result_exec]
    simp only [respond, hwritten, stdin_runCommand]
    rfl
  have hinfo : (readMeta metaFile).result m.respond ran
      = (.ok ((catStdout report.metadata).toOption.map parseMetaFile), ran) := by
    rw [result_readMeta, hran]
    simp [catFile]
  rw [runInBox, Program.bind_eq, Program.result_bind_ok result_writeInput, Program.bind_eq,
    Program.result_attempt_bind hrun, Program.bind_eq, Program.result_bind_ok result_readBoxFile,
    Program.bind_eq, Program.result_bind_ok result_readBoxFile, Program.bind_eq,
    Program.result_bind_ok hinfo]
  cases catStdout report.metadata <;> rfl

theorem result_rmMeta : ((exec (.rmMeta metaFile)).attempt.bind fun _ ↦ .pure ()).result m.respond s
    = (.ok (), { s with metadata := Function.update s.metadata metaFile none }) :=
  Program.result_attempt_bind result_exec

/-- **One test** comes to what the program makes of the box and its input. -/
theorem result_runTest : ∃ s', s'.files = m.filesAfter testCase s.files ∧
    (runTest boxId langConfig config boxPath testCase).result m.respond s
      = (.ok (m.testResult testCase s.files), s') := by
  have hnow : now.result m.respond s = (.ok (m.clock s.ticks), { s with ticks := s.ticks + 1 }) :=
    rfl
  refine ⟨_, ?_, (Program.result_bind_ok ((Program.result_bind_ok hnow).trans
    (Program.result_tryFinally result_runInBox result_rmMeta))).trans rfl⟩
  rfl

end Machine

end JudgeIt
