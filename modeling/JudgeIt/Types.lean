import JudgeIt.Js.Number

/-!
# The shared data types

The types the queue, the judge and the sandbox exchange, and the table of languages. An optional
field, and one that may be `undefined` or `null`, is an `Option`. Kafka events are parsed JSON,
which nothing validates: a field of `SubmissionQueuedEvent` that the JSON lacks is `none`.
-/

namespace JudgeIt

/-- A test of a problem. -/
structure TestCase where
  name : JsString
  input : Option JsString
  output : Option JsString
  deriving DecidableEq

/-- How the sandbox says a test ended. -/
inductive Status
  | OK | TLE | MLE | RE | CE | SE
  deriving DecidableEq

/-- The status as the string it is. -/
def Status.text : Status → JsString
  | OK => "OK"
  | TLE => "TLE"
  | MLE => "MLE"
  | RE => "RE"
  | CE => "CE"
  | SE => "SE"

/-- What the execution service reports about one test. -/
structure ExecutionResult where
  testCaseName : Option JsString := none
  success : Bool
  output : Option JsString := none
  error : Option JsString := none
  stderr : Option JsString := none
  time : Option ℚ := none
  wallTime : Option ℚ := none
  memory : Option ℤ := none
  exitCode : Option ℤ := none
  signal : Option ℤ := none
  status : Status
  deriving DecidableEq

/-- The metadata `isolate` writes about a run. -/
structure IsolateMeta where
  status : JsString
  time : ℚ
  wallTime : ℚ
  memory : ℤ
  exitCode : ℤ
  signal : ℤ
  message : JsString
  deriving DecidableEq

/-- The limits of a run. -/
structure ExecutionConfig where
  timeLimit : ℤ
  memoryLimit : ℤ
  stackLimit : ℤ
  processes : ℤ

/-- `Partial<ExecutionConfig>`. -/
structure PartialConfig where
  timeLimit : Option ℤ := none
  memoryLimit : Option ℤ := none
  stackLimit : Option ℤ := none
  processes : Option ℤ := none

/-- A problem, as far as it is read. -/
structure Problem where
  id : ℤ
  title : JsString
  difficulty : JsString
  memoryLimit : ℤ
  timeLimit : ℤ
  deriving DecidableEq

/-- The limits of a problem, in megabytes and seconds. -/
structure ProblemDetails where
  MemoryLimit : ℤ
  TimeLimit : ℤ

/-- The event the controller queues and the worker judges. -/
structure SubmissionQueuedEvent where
  submissionId : Option ℤ
  userId : Option JsString
  problemId : Option ℤ
  language : Option JsString
  code : Option JsString
  timestamp : Option JsString
  deriving DecidableEq

/-- The event has all its fields. -/
structure SubmissionQueuedEvent.WellFormed (e : SubmissionQueuedEvent) : Prop where
  submissionId : e.submissionId.isSome
  userId : e.userId.isSome
  problemId : e.problemId.isSome
  language : e.language.isSome
  code : e.code.isSome
  timestamp : e.timestamp.isSome

/-- The body of a submit request, as validated: the problem is named by a number, which `none` says
is no integer. -/
structure SubmissionDto where
  problemId : Option ℤ
  sourceCode : JsString
  language : JsString
  deriving DecidableEq

/-- The data a row of `Submission` is created from. -/
structure SubmissionData where
  user_id : Option ℤ
  problem_id : Option ℤ
  language : JsString
  source_code : JsString
  deriving DecidableEq

/-- A row of `Submission`. -/
structure Submission where
  id : ℤ
  problem_id : ℤ
  user_id : ℤ
  language : JsString
  source_code : JsString
  verdicate : JsString
  execution_time : Option ℚ
  memory_user : Option ℤ
  created_at : ℤ
  deriving DecidableEq

/-- The result row of one test. -/
structure SubmissionResult where
  submissionId : Option ℤ
  testcaseName : JsString
  executionTime : Option ℚ
  memoryUsed : Option ℤ
  verdict : JsString
  createdAt : ℤ
  deriving DecidableEq

/-! ## Languages -/

/-- How a language is compiled. -/
structure CompileConfig where
  timeout : ℤ
  cmd : JsString → List JsString

/-- How a language is run. -/
structure RunConfig where
  cmd : JsString → List JsString
  wallTime : ℤ → ℤ

/-- A supported language. -/
structure LanguageConfig where
  extension : JsString
  compile : Option CompileConfig
  run : RunConfig

/-- `languages.cpp`. -/
def cpp : LanguageConfig where
  extension := "cpp"
  compile := some
    { timeout := 10
      cmd := fun sourceFile ↦ ["/usr/bin/g++", "-std=c++17", "-O2", "-Wall", "-Wextra", sourceFile,
        "-o", "solution", "-lm"] }
  run :=
    { cmd := fun _ ↦ ["./solution"]
      wallTime := fun timeLimit ↦ timeLimit * 2 }

/-- `languages.python`. -/
def python : LanguageConfig where
  extension := "py"
  compile := none
  run :=
    { cmd := fun sourceFile ↦ ["/usr/bin/python3", sourceFile]
      wallTime := fun timeLimit ↦ timeLimit * 3 }

/-- `languages[language]`. -/
def languages (language : Option JsString) : Option LanguageConfig :=
  if language = some (JsString.ofString "cpp") then some cpp
  else if language = some (JsString.ofString "python") then some python
  else none

end JudgeIt
