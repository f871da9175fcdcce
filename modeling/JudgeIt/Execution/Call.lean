import JudgeIt.Async.Monitor
import JudgeIt.Types

/-!
# What submitting and judging call

The controller that takes submissions and the judge reach outside through the calls below: shell
commands (nearly all of them `isolate` commands), the files of a sandbox box, the clock, the tables
of the database, the queue and one metric. A call that can reject answers with an `Except`, whose
error is the text of the rejection. Commands are kept as their parts instead of the assembled
command line.
-/

namespace JudgeIt

open Async

/-- A file of a box: `join(boxPath, 'box', name)`. -/
structure BoxFile where
  boxPath : JsString
  name : JsString
  deriving DecidableEq

/-- The metadata file of a run, named by the box and the clock. -/
structure MetaFile where
  boxId : ℕ
  time : ℤ
  deriving DecidableEq

/-- What a test reads on its standard input. -/
inductive InputRedirect
  | inputFile
  | devNull
  deriving DecidableEq

/-- The options and the program of an `isolate --run` of a test. -/
structure RunCommand where
  boxId : ℕ
  time : ℤ
  wallTime : ℤ
  mem : ℤ
  stack : ℤ
  processes : ℤ
  usrDir : JsString
  metaFile : MetaFile
  runCmd : List JsString
  inputRedirect : InputRedirect
  timeout : ℤ
  deriving DecidableEq

/-- The options and the program of the `isolate --run` that compiles. -/
structure CompileCommand where
  boxId : ℕ
  time : ℤ
  wallTime : ℤ
  compileCmd : List JsString
  deriving DecidableEq

/-- The shell commands. -/
inductive Command
  /-- `isolate --box-id=.. --init`. -/
  | init (boxId : ℕ)
  /-- `isolate --box-id=.. --cleanup`. -/
  | cleanup (boxId : ℕ)
  /-- `isolate .. --run -- /bin/bash -c ".. 2> compile_error.txt"`. -/
  | compile (command : CompileCommand)
  /-- `isolate .. --run -- /bin/sh -c 'exec .. > output.txt 2> error.txt'`. -/
  | run (command : RunCommand)
  /-- `chmod +x`. -/
  | chmod (file : BoxFile)
  /-- `cat` of a file of the box. -/
  | cat (file : BoxFile)
  /-- `cat` of a metadata file. -/
  | catMeta (file : MetaFile)
  /-- `rm -f` of a metadata file. -/
  | rmMeta (file : MetaFile)
  deriving DecidableEq

/-- What becomes of a message that is sent. The sender cannot tell the two rejections apart. -/
inductive Sent
  /-- The broker stored it and the promise resolves. -/
  | acked
  /-- The promise rejects, and the broker has not stored it. -/
  | lost (error : JsString)
  /-- The promise rejects, although the broker has stored it. -/
  | unacknowledged (error : JsString)

/-- The calls submitting and judging a submission can make. -/
inductive Call
  /-- `prisma.submission.create`. -/
  | createSubmission (data : SubmissionData)
  /-- `new Date()`, as `JSON.stringify` writes it. -/
  | timestamp
  /-- `producer.send` of one message. -/
  | send (message : SubmissionQueuedEvent)
  /-- `testCaseService.getTestCases(problemId)`. -/
  | getTestCases (problemId : Option ℤ)
  /-- `prisma.problem.findUnique`. -/
  | findProblem (problemId : Option ℤ)
  /-- `execAsync(command)`. -/
  | exec (command : Command)
  /-- `writeFile(file, content)`. -/
  | writeFile (file : BoxFile) (content : JsString)
  /-- `readFile(file)`. -/
  | readFile (file : BoxFile)
  /-- `Date.now()` and `new Date()`. -/
  | now
  /-- `new Date(timestamp).getTime()`. -/
  | getTime (timestamp : Option JsString)
  /-- `prisma.submission.update`. -/
  | updateSubmission (submissionId : Option ℤ) (verdict : JsString) (executionTime memoryUsed : ℚ)
  /-- `prisma.submissionResult.createMany`. -/
  | createMany (data : List SubmissionResult)
  /-- `messageQueueLatency.observe(seconds)`. -/
  | observe (seconds : Option ℚ)
  deriving DecidableEq

/-- What each call is answered with. -/
@[reducible] def Call.Res : Call → Type
  | createSubmission _ => Except JsString Submission
  | timestamp => JsString
  | send _ => Sent
  | getTestCases _ => Except JsString (List TestCase)
  | findProblem _ => Except JsString (Option Problem)
  | exec _ | readFile _ => Except JsString JsString
  | now => ℤ
  | getTime _ => Option ℤ
  | writeFile .. | updateSubmission .. | createMany _ | observe _ => Except JsString Unit

instance Call.nonempty_res : (op : Call) → Nonempty op.Res
  | .createSubmission _ | .getTestCases _ | .findProblem _ | .exec _ | .readFile _ | .writeFile ..
  | .updateSubmission .. | .createMany _ | .observe _ => ⟨.error []⟩
  | .timestamp => ⟨[]⟩
  | .send _ => ⟨.acked⟩
  | .now => ⟨(0 : ℤ)⟩
  | .getTime _ => ⟨(none : Option ℤ)⟩

/-- The calls of the execution service: commands, files and the clock. -/
def Call.Sandbox : Call → Prop
  | exec _ | writeFile .. | readFile _ | now => True
  | createSubmission _ | timestamp | send _ | getTestCases _ | findProblem _ | getTime _
  | updateSubmission .. | createMany _ | observe _ => False

instance : DecidablePred Call.Sandbox
  | .exec _ | .writeFile .. | .readFile _ | .now => inferInstanceAs (Decidable True)
  | .createSubmission _ | .timestamp | .send _ | .getTestCases _ | .findProblem _ | .getTime _
  | .updateSubmission .. | .createMany _ | .observe _ => inferInstanceAs (Decidable False)

/-- The calls of the execution service between the init and the cleanup of a box. -/
def Call.InBox (boxId : ℕ) : Call → Prop
  | exec (.init _) | exec (.cleanup _) => False
  | exec (.compile command) => command.boxId = boxId
  | exec (.run command) => command.boxId = boxId
  | exec _ | writeFile .. | readFile _ | now => True
  | createSubmission _ | timestamp | send _ | getTestCases _ | findProblem _ | getTime _
  | updateSubmission .. | createMany _ | observe _ => False

instance (boxId : ℕ) : DecidablePred (Call.InBox boxId)
  | .exec (.compile command) => inferInstanceAs (Decidable (command.boxId = boxId))
  | .exec (.run command) => inferInstanceAs (Decidable (command.boxId = boxId))
  | .exec (.chmod _) | .exec (.cat _) | .exec (.catMeta _) | .exec (.rmMeta _) | .writeFile ..
  | .readFile _ | .now => inferInstanceAs (Decidable True)
  | .exec (.init _) | .exec (.cleanup _) | .createSubmission _ | .timestamp | .send _
  | .getTestCases _ | .findProblem _ | .getTime _ | .updateSubmission .. | .createMany _
  | .observe _ => inferInstanceAs (Decidable False)

/-- The calls that write to the database. -/
def Call.Writes : Call → Prop
  | createSubmission _ | updateSubmission .. | createMany _ => True
  | timestamp | send _ | getTestCases _ | findProblem _ | exec _ | writeFile .. | readFile _ | now
  | getTime _ | observe _ => False

theorem Call.InBox.sandbox {boxId : ℕ} {op : Call} (h : op.InBox boxId) : op.Sandbox := by
  cases op <;> first | exact trivial | exact h

theorem Call.Sandbox.not_writes {op : Call} (h : op.Sandbox) : ¬op.Writes := by
  cases op <;> first | exact id | exact absurd h id

/-- What judges a submission, or a part of it. -/
abbrev Judging := Program Call.Res JsString

namespace Judging

/-! ## Awaiting a call that may reject -/

/-- `await execAsync(command)`, for its `stdout`. -/
def exec (command : Command) : Judging JsString :=
  (Program.request (.exec command)).bind Program.ofExcept

/-- `await writeFile(file, content)`. -/
def writeFile (file : BoxFile) (content : JsString) : Judging Unit :=
  (Program.request (.writeFile file content)).bind Program.ofExcept

/-- `await readFile(file)`. -/
def readFile (file : BoxFile) : Judging JsString :=
  (Program.request (.readFile file)).bind Program.ofExcept

/-- The clock. -/
def now : Judging ℤ := Program.request Call.now

variable {command : Command} {file : BoxFile} {content : JsString} {α : Type}
  {tr : List (Event Call.Res)}

@[simp] theorem eval_exec_iff {out : Except JsString JsString} :
    (exec command).Eval tr out ↔ tr = [⟨.exec command, out⟩] := by
  rw [exec, Program.eval_request_bind_iff]
  simp [and_comm]

@[simp] theorem eval_writeFile_iff {out : Except JsString Unit} :
    (writeFile file content).Eval tr out ↔ tr = [⟨.writeFile file content, out⟩] := by
  rw [writeFile, Program.eval_request_bind_iff]
  simp [and_comm]

@[simp] theorem eval_readFile_iff {out : Except JsString JsString} :
    (readFile file).Eval tr out ↔ tr = [⟨.readFile file, out⟩] := by
  rw [readFile, Program.eval_request_bind_iff]
  simp [and_comm]

theorem eval_exec_attempt_bind_iff {f : Except JsString JsString → Judging α}
    {out : Except JsString α} : ((exec command).attempt.bind f).Eval tr out ↔
      ∃ r tr', tr = ⟨.exec command, r⟩ :: tr' ∧ (f r).Eval tr' out := by
  rw [Program.eval_attempt_bind_iff]
  simp only [eval_exec_iff]
  constructor
  · rintro ⟨r, tr₁, tr₂, rfl, rfl, h⟩
    exact ⟨r, tr₂, rfl, h⟩
  · rintro ⟨r, tr', rfl, h⟩
    exact ⟨r, _, tr', rfl, rfl, h⟩

theorem eval_exec_ignored_iff {out : Except JsString Unit} :
    ((exec command).attempt.bind fun _ ↦ .pure ()).Eval tr out ↔
      out = .ok () ∧ ∃ r, tr = [⟨.exec command, r⟩] := by
  rw [eval_exec_attempt_bind_iff]
  constructor
  · rintro ⟨r, tr', rfl, rfl, rfl⟩
    exact ⟨rfl, r, rfl⟩
  · rintro ⟨rfl, r, rfl⟩
    exact ⟨r, [], rfl, rfl, rfl⟩

section Only

variable {P : Call → Prop} [DecidablePred P]

theorem keeps_exec (h : P (.exec command)) : (exec command).Keeps (Program.only P) () :=
  (Program.keeps_only_request h).bind Program.keeps_ofExcept

theorem keeps_writeFile (h : P (.writeFile file content)) :
    (writeFile file content).Keeps (Program.only P) () :=
  (Program.keeps_only_request h).bind Program.keeps_ofExcept

theorem keeps_readFile (h : P (.readFile file)) : (readFile file).Keeps (Program.only P) () :=
  (Program.keeps_only_request h).bind Program.keeps_ofExcept

theorem keeps_now (h : P .now) : now.Keeps (Program.only P) () := Program.keeps_only_request h

end Only

end Judging

end JudgeIt
