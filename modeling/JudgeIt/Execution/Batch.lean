import JudgeIt.Execution.Call
import JudgeIt.Execution.Result

/-!
# Running a batch of tests in a box

`ExecutionService.executeBatch` prepares a sandbox box (init, source file, compilation) and runs the
tests in it one after the other. It never rejects: a failed preparation and an error in the middle
of the loop both become one error result per test.

`eval_executeBatch_ok` is the account the judge uses. Read backwards it says what a result other
than an error means: the batch was prepared, and the trace of the batch splits into one segment per
test, each a complete run of `runTestCase`.
-/

namespace JudgeIt

open Async Judging

/-- What `compileSource` returns. -/
structure CompileResult where
  success : Bool
  error : Option JsString := none

/-! ## The parts of `executeBatch` -/

/-- `initBox(boxId)`. -/
def initBox (boxId : ℕ) : Judging JsString := do
  let stdout ← exec (.init boxId)
  pure stdout.trim

/-- `destroyBox(boxId)`. -/
def destroyBox (boxId : ℕ) : Judging Unit :=
  (exec (.cleanup boxId)).attempt.bind fun _ ↦ pure ()

/-- The command of `compileSource`. -/
def compileCommand (boxId : ℕ) (sourceFile : JsString) (compileConfig : CompileConfig) :
    CompileCommand where
  boxId := boxId
  time := compileConfig.timeout
  wallTime := compileConfig.timeout * 2
  compileCmd := compileConfig.cmd sourceFile

/-- `compileSource(boxId, sourceFile, langConfig, boxPath)`. -/
def compileSource (boxId : ℕ) (sourceFile : JsString) (compileConfig : CompileConfig)
    (boxPath : JsString) : Judging CompileResult :=
  (exec (.compile (compileCommand boxId sourceFile compileConfig))).attempt.bind fun
    | .ok _ => pure { success := true }
    | .error _ => do
      let compileError ← (readFile ⟨boxPath, "compile_error.txt"⟩).tryCatch fun _ ↦
        pure (.ofString "Compilation failed")
      pure { success := false, error := some (truncate compileError 1000) }

/-- `readBoxFile(boxPath, filename)`. -/
def readBoxFile (boxPath filename : JsString) : Judging JsString :=
  (exec (.cat ⟨boxPath, filename⟩)).tryCatch fun _ ↦ pure []

/-- `readMeta(metaFile)`. -/
def readMeta (metaFile : MetaFile) : Judging (Option IsolateMeta) :=
  (exec (.catMeta metaFile)).attempt.bind fun
    | .ok stdout => pure (some (parseMetaFile stdout))
    | .error _ => pure none

/-- The command of `runTestCase`. -/
def runCommand (boxId : ℕ) (langConfig : LanguageConfig) (sourceFile : JsString)
    (testCase : TestCase) (config : ExecutionConfig) (metaFile : MetaFile) : RunCommand :=
  let execFile := if langConfig.compile.isSome then .ofString "solution" else sourceFile
  let wallTime := langConfig.run.wallTime config.timeLimit
  { boxId := boxId
    time := config.timeLimit
    wallTime := wallTime
    mem := config.memoryLimit
    stack := config.stackLimit
    processes := config.processes
    usrDir := .ofString (if langConfig.compile.isSome then "--dir=/usr:noexec" else "--dir=/usr")
    metaFile := metaFile
    runCmd := langConfig.run.cmd execFile
    inputRedirect := if testCase.input.any (· ≠ []) then .inputFile else .devNull
    timeout := (wallTime + 5) * 1000 }

/-- The input of a test is written to the box when there is one. -/
def writeInput (boxPath : JsString) (testCase : TestCase) : Judging Unit :=
  match testCase.input with
  | some input => writeFile ⟨boxPath, "input.txt"⟩ input
  | none => pure ()

/-- The `try` block of `runTestCase`. -/
def runInBox (boxId : ℕ) (langConfig : LanguageConfig) (sourceFile : JsString)
    (testCase : TestCase) (config : ExecutionConfig) (boxPath : JsString) (metaFile : MetaFile) :
    Judging ExecutionResult := do
  writeInput boxPath testCase
  let _ ← (exec (.run (runCommand boxId langConfig sourceFile testCase config metaFile))).attempt
  let output ← readBoxFile boxPath "output.txt"
  let stderr ← readBoxFile boxPath "error.txt"
  match ← readMeta metaFile with
  | none =>
    pure { success := false, error := some "Failed to read execution metadata", status := .SE }
  | some info => pure (buildResultFromMeta info output stderr)

/-- `runTestCase(boxId, langConfig, sourceFile, testCase, config, boxPath)`. -/
def runTestCase (boxId : ℕ) (langConfig : LanguageConfig) (sourceFile : JsString)
    (testCase : TestCase) (config : ExecutionConfig) (boxPath : JsString) :
    Judging ExecutionResult := do
  let time ← now
  let metaFile : MetaFile := ⟨boxId, time⟩
  (runInBox boxId langConfig sourceFile testCase config boxPath metaFile).tryFinally
    ((exec (.rmMeta metaFile)).attempt.bind fun _ ↦ pure ())

/-- The file the source is written to. -/
def sourceFile (langConfig : LanguageConfig) : JsString :=
  JsString.ofString "solution." ++ langConfig.extension

/-- The compilation step of the `try` block: `some` when it ends the batch with error results. -/
def compileStep (boxId : ℕ) (langConfig : LanguageConfig) (testCases : List TestCase)
    (boxPath : JsString) : Judging (Option (List ExecutionResult)) :=
  match langConfig.compile with
  | none => pure none
  | some compileConfig => do
    let compileResult ← compileSource boxId (sourceFile langConfig) compileConfig boxPath
    if !compileResult.success then
      pure (some (buildErrorResults testCases (compileResult.error.getD []) .CE))
    else do
      let _ ← (exec (.chmod ⟨boxPath, "solution"⟩)).attempt
      pure none

/-- One round of the test loop. -/
def runTest (boxId : ℕ) (langConfig : LanguageConfig) (config : ExecutionConfig)
    (boxPath : JsString) (testCase : TestCase) : Judging ExecutionResult := do
  let result ← runTestCase boxId langConfig (sourceFile langConfig) testCase config boxPath
  pure { result with testCaseName := some testCase.name }

/-- The `try` block of `executeBatch`. -/
def runBatch (boxId : ℕ) (code : Option JsString) (langConfig : LanguageConfig)
    (testCases : List TestCase) (config : ExecutionConfig) (boxPath : JsString) :
    Judging (List ExecutionResult) := do
  let code ← Program.ofExcept (validateCode code)
  writeFile ⟨boxPath, sourceFile langConfig⟩ code
  match ← compileStep boxId langConfig testCases boxPath with
  | some results => pure results
  | none => Program.collect (runTest boxId langConfig config boxPath) testCases

/-- `executeBatch(boxId, code, language, testCases, config)`. -/
def executeBatch (boxId : ℕ) (code language : Option JsString) (testCases : List TestCase)
    (config : PartialConfig) : Judging (List ExecutionResult) :=
  match languages language with
  | none =>
    pure (buildErrorResults testCases
      (JsString.ofString "Unsupported language: " ++ language.getD "undefined") .SE)
  | some langConfig =>
    let mergedConfig := mergeConfig config
    (initBox boxId).attempt.bind fun
      | .error _ => pure (buildErrorResults testCases "Failed to initialize sandbox" .SE)
      | .ok boxPath =>
        ((runBatch boxId code langConfig testCases mergedConfig boxPath).tryCatch fun error ↦
          pure (buildErrorResults testCases
            (JsString.ofString "Internal execution error, " ++ error) .SE)).tryFinally
          (destroyBox boxId)

/-! ## What the parts call

One account per part: its calls, their responses and its outcome. -/

variable {boxId : ℕ} {code language : Option JsString} {langConfig : LanguageConfig}
  {testCases : List TestCase} {config : ExecutionConfig} {boxPath : JsString}
  {tr : List (Event Call.Res)}

theorem eval_destroyBox_iff {out : Except JsString Unit} : (destroyBox boxId).Eval tr out ↔
    out = .ok () ∧ ∃ r, tr = [⟨.exec (.cleanup boxId), r⟩] := eval_exec_ignored_iff

theorem eval_initBox_iff {out : Except JsString JsString} : (initBox boxId).Eval tr out ↔
    ∃ r, tr = [⟨.exec (.init boxId), r⟩] ∧ out = r.map JsString.trim := by
  rw [initBox, Program.bind_eq, Program.eval_bind_iff]
  simp only [eval_exec_iff, Program.pure_eq, Program.eval_pure_iff]
  constructor
  · rintro (⟨e, rfl, rfl⟩ | ⟨stdout, tr₁, tr₂, rfl, rfl, rfl, rfl⟩)
    · exact ⟨.error e, rfl, rfl⟩
    · exact ⟨.ok stdout, rfl, rfl⟩
  · rintro ⟨r, rfl, rfl⟩
    cases r with
    | error e => exact Or.inl ⟨e, rfl, rfl⟩
    | ok stdout => exact Or.inr ⟨stdout, _, [], rfl, rfl, rfl, rfl⟩

/-- Compiling either succeeds, or fails with the compiler's output or its replacement. -/
theorem eval_compileSource {compileConfig : CompileConfig} {source : JsString}
    {out : Except JsString CompileResult}
    (h : (compileSource boxId source compileConfig boxPath).Eval tr out) :
    (∃ stdout, tr = [⟨.exec (.compile (compileCommand boxId source compileConfig)), .ok stdout⟩] ∧
      out = .ok { success := true }) ∨
    ∃ e r error, tr = [⟨.exec (.compile (compileCommand boxId source compileConfig)), .error e⟩,
        ⟨.readFile ⟨boxPath, "compile_error.txt"⟩, r⟩] ∧
      out = .ok { success := false, error := some error } := by
  rw [compileSource, eval_exec_attempt_bind_iff] at h
  obtain ⟨r, tr', rfl, h⟩ := h
  cases r with
  | ok stdout =>
    obtain ⟨rfl, rfl⟩ := h
    exact Or.inl ⟨stdout, rfl, rfl⟩
  | error e =>
    refine Or.inr ⟨e, ?_⟩
    rcases Program.eval_bind_iff.mp h with ⟨e', he', -⟩ | ⟨error, tr₁, tr₂, rfl, h₁, rfl, rfl⟩
    · simp [Program.eval_tryCatch_iff] at he'
    · rcases Program.eval_tryCatch_iff.mp h₁ with ⟨a, ha, ha'⟩ |
        ⟨e', tr₃, tr₄, rfl, h₃, rfl, -⟩
      · rw [eval_readFile_iff] at ha
        subst ha
        exact ⟨_, _, rfl, rfl⟩
      · rw [eval_readFile_iff] at h₃
        subst h₃
        exact ⟨_, _, rfl, rfl⟩

/-- The compilation step never rejects. It lets the batch go on exactly when the language has no
compiler or the compiler succeeded. -/
theorem eval_compileStep {out : Except JsString (Option (List ExecutionResult))}
    (h : (compileStep boxId langConfig testCases boxPath).Eval tr out) :
    (langConfig.compile = none ∧ tr = [] ∧ out = .ok none) ∨
    ∃ c, langConfig.compile = some c ∧
      ((∃ stdout r, tr = [⟨.exec (.compile (compileCommand boxId (sourceFile langConfig) c)),
          .ok stdout⟩, ⟨.exec (.chmod ⟨boxPath, "solution"⟩), r⟩] ∧ out = .ok none) ∨
      ∃ e r error, tr = [⟨.exec (.compile (compileCommand boxId (sourceFile langConfig) c)),
          .error e⟩, ⟨.readFile ⟨boxPath, "compile_error.txt"⟩, r⟩] ∧
        out = .ok (some (buildErrorResults testCases error .CE))) := by
  rw [compileStep] at h
  cases hc : langConfig.compile with
  | none =>
    rw [hc] at h
    exact Or.inl ⟨rfl, h⟩
  | some c =>
    rw [hc] at h
    refine Or.inr ⟨c, rfl, ?_⟩
    rcases Program.eval_bind_iff.mp h with ⟨e, he, -⟩ | ⟨result, tr₁, tr₂, rfl, h₁, h₂⟩
    · rcases eval_compileSource he with ⟨_, -, h'⟩ | ⟨_, _, _, -, h'⟩ <;> cases h'
    · rcases eval_compileSource h₁ with ⟨stdout, rfl, hr⟩ | ⟨e, r, error, rfl, hr⟩
      · cases hr
        obtain ⟨r, tr', rfl, rfl, rfl⟩ := eval_exec_attempt_bind_iff.mp h₂
        exact Or.inl ⟨stdout, r, rfl, rfl⟩
      · cases hr
        obtain ⟨rfl, rfl⟩ := h₂
        exact Or.inr ⟨e, r, error, rfl, rfl⟩

/-! ## Which calls are made -/

theorem runInBox_keeps {testCase : TestCase} {source : JsString} {metaFile : MetaFile} :
    (runInBox boxId langConfig source testCase config boxPath metaFile).Keeps
      (Program.only (Call.InBox boxId)) () := by
  have hread : ∀ filename, (readBoxFile boxPath filename).Keeps
      (Program.only (Call.InBox boxId)) () := fun filename ↦
    (keeps_exec trivial).tryCatch fun _ ↦ Program.keeps_pure _
  have hinput : (writeInput boxPath testCase).Keeps (Program.only (Call.InBox boxId)) () := by
    rw [writeInput]
    cases testCase.input with
    | none => exact Program.keeps_pure ()
    | some input => exact keeps_writeFile trivial
  refine hinput.bind fun _ ↦ ?_
  refine Program.Keeps.obeys_attempt_bind (keeps_exec ?_) fun _ ↦ ?_
  · exact rfl
  refine (hread _).bind fun output ↦ (hread _).bind fun stderr ↦ ?_
  refine Program.Keeps.bind ?_ fun info ↦ ?_
  · refine (keeps_exec trivial).obeys_attempt_bind fun r ↦ ?_
    cases r <;> exact Program.keeps_pure _
  · cases info <;> exact Program.keeps_pure _

theorem runTest_keeps {testCase : TestCase} :
    (runTest boxId langConfig config boxPath testCase).Keeps
      (Program.only (Call.InBox boxId)) () := by
  refine Program.Keeps.bind ?_ fun result ↦ Program.keeps_pure _
  refine (keeps_now trivial).bind fun time ↦ runInBox_keeps.tryFinally ?_
  exact (keeps_exec trivial).obeys_attempt_bind fun _ ↦ Program.keeps_pure ()

theorem compileStep_keeps : (compileStep boxId langConfig testCases boxPath).Keeps
    (Program.only (Call.InBox boxId)) () := by
  rw [compileStep]
  cases langConfig.compile with
  | none => exact Program.keeps_pure none
  | some c =>
    refine Program.Keeps.bind ?_ fun result ↦ ?_
    · refine Program.Keeps.obeys_attempt_bind (keeps_exec ?_) fun r ↦ ?_
      · exact rfl
      cases r with
      | ok _ => exact Program.keeps_pure _
      | error _ =>
        exact ((keeps_readFile trivial).tryCatch fun _ ↦ Program.keeps_pure _).bind
          fun _ ↦ Program.keeps_pure _
    · split
      · exact Program.keeps_pure _
      · exact (keeps_exec trivial).obeys_attempt_bind fun _ ↦ Program.keeps_pure none

theorem runBatch_keeps : (runBatch boxId code langConfig testCases config boxPath).Keeps
    (Program.only (Call.InBox boxId)) () := by
  refine (Program.keeps_ofExcept _).bind fun text ↦ (keeps_writeFile trivial).bind fun _ ↦ ?_
  refine compileStep_keeps.bind fun step ↦ ?_
  cases step with
  | none => exact Program.keeps_collect (fun _ ↦ runTest_keeps) testCases
  | some results => exact Program.keeps_pure results

/-- A batch makes no calls but those of the execution service. -/
theorem executeBatch_keeps {partialConfig : PartialConfig} :
    (executeBatch boxId code language testCases partialConfig).Keeps
      (Program.only Call.Sandbox) () := by
  rw [executeBatch]
  cases languages language with
  | none => exact Program.keeps_pure _
  | some langConfig =>
    refine Program.Keeps.obeys_attempt_bind ?_ fun r ↦ ?_
    · exact (keeps_exec trivial).bind fun _ ↦ Program.keeps_pure _
    · cases r with
      | error _ => exact Program.keeps_pure _
      | ok boxPath =>
        refine Program.Keeps.tryFinally (Program.Keeps.tryCatch ?_ fun _ ↦ Program.keeps_pure _) ?_
        · exact runBatch_keeps.of_only fun op r hop ↦ if_pos hop.sandbox
        · exact (keeps_exec trivial).obeys_attempt_bind fun _ ↦ Program.keeps_pure ()

/-! ## What a batch of results means -/

/-- The trace prepares the box for running the tests: the language is supported, the box was
initialised at `boxPath`, the source is within the size limit and was written to the box, and for a
compiled language the compiler succeeded. -/
structure Prepared (boxId : ℕ) (code language : Option JsString) (tr : List (Event Call.Res))
    (langConfig : LanguageConfig) (boxPath : JsString) : Prop where
  supported : languages language = some langConfig
  initialised : ∃ stdout, boxPath = JsString.trim stdout ∧ ⟨.exec (.init boxId), .ok stdout⟩ ∈ tr
  accepted : ∃ text, code = some text ∧ text.length ≤ maxSize ∧
    ⟨.writeFile ⟨boxPath, sourceFile langConfig⟩ text, .ok ()⟩ ∈ tr
  compiled : ∀ c, langConfig.compile = some c → ∃ stdout,
    ⟨.exec (.compile (compileCommand boxId (sourceFile langConfig) c)), .ok stdout⟩ ∈ tr

/-- The calls of a compilation step that lets the batch go on. -/
def CompiledBy (boxId : ℕ) (langConfig : LanguageConfig) (boxPath : JsString)
    (tr : List (Event Call.Res)) : Prop :=
  (langConfig.compile = none ∧ tr = []) ∨
  ∃ c stdout r, langConfig.compile = some c ∧
    tr = [⟨.exec (.compile (compileCommand boxId (sourceFile langConfig) c)), .ok stdout⟩,
      ⟨.exec (.chmod ⟨boxPath, "solution"⟩), r⟩]

theorem CompiledBy.mem (h : CompiledBy boxId langConfig boxPath tr) {c : CompileConfig}
    (hc : langConfig.compile = some c) : ∃ stdout,
      ⟨.exec (.compile (compileCommand boxId (sourceFile langConfig) c)), .ok stdout⟩ ∈ tr := by
  rcases h with ⟨hnone, -⟩ | ⟨c', stdout, r, hc', rfl⟩
  · rw [hnone] at hc
    cases hc
  · rw [hc'] at hc
    cases hc
    exact ⟨stdout, List.mem_cons_self⟩

/-- The four ways through the `try` block: the source is too long, it cannot be written, it does
not compile, or the loop over the tests is entered. -/
theorem eval_runBatch {out : Except JsString (List ExecutionResult)}
    (h : (runBatch boxId code langConfig testCases config boxPath).Eval tr out) :
    (∃ e, validateCode code = .error e ∧ tr = [] ∧ out = .error e) ∨
    (∃ text e, validateCode code = .ok text ∧
      tr = [⟨.writeFile ⟨boxPath, sourceFile langConfig⟩ text, .error e⟩] ∧ out = .error e) ∨
    (∃ text c e r error, validateCode code = .ok text ∧ langConfig.compile = some c ∧
      tr = [⟨.writeFile ⟨boxPath, sourceFile langConfig⟩ text, .ok ()⟩,
        ⟨.exec (.compile (compileCommand boxId (sourceFile langConfig) c)), .error e⟩,
        ⟨.readFile ⟨boxPath, "compile_error.txt"⟩, r⟩] ∧
      out = .ok (buildErrorResults testCases error .CE)) ∨
    ∃ text pre loop, validateCode code = .ok text ∧
      tr = ⟨.writeFile ⟨boxPath, sourceFile langConfig⟩ text, .ok ()⟩ :: pre ++ loop ∧
      CompiledBy boxId langConfig boxPath pre ∧
      (Program.collect (runTest boxId langConfig config boxPath) testCases).Eval loop out := by
  rcases Program.eval_bind_iff.mp h with ⟨e, he, rfl⟩ | ⟨text, tr₁, tr₂, rfl, h₁, h₂⟩
  · obtain ⟨rfl, hv⟩ := Program.eval_ofExcept_iff.mp he
    exact Or.inl ⟨e, hv.symm, rfl, rfl⟩
  obtain ⟨rfl, hv⟩ := Program.eval_ofExcept_iff.mp h₁
  refine Or.inr ?_
  rcases Program.eval_bind_iff.mp h₂ with ⟨e, he, rfl⟩ | ⟨_, tr₃, tr₄, rfl, h₃, h₄⟩
  · rw [eval_writeFile_iff] at he
    exact Or.inl ⟨text, e, hv.symm, he, rfl⟩
  rw [eval_writeFile_iff] at h₃
  subst h₃
  refine Or.inr ?_
  rcases Program.eval_bind_iff.mp h₄ with ⟨e, he, rfl⟩ | ⟨step, tr₅, tr₆, rfl, h₅, h₆⟩
  · rcases eval_compileStep he with ⟨-, -, hout⟩ | ⟨c, -, ⟨_, _, -, hout⟩ | ⟨_, _, _, -, hout⟩⟩ <;>
      cases hout
  rcases eval_compileStep h₅ with ⟨hc, rfl, hout⟩ |
    ⟨c, hc, ⟨stdout, r, rfl, hout⟩ | ⟨e, r, error, rfl, hout⟩⟩
  · cases hout
    exact Or.inr ⟨text, [], tr₆, hv.symm, rfl, Or.inl ⟨hc, rfl⟩, h₆⟩
  · cases hout
    exact Or.inr ⟨text, _, tr₆, hv.symm, rfl, Or.inr ⟨c, stdout, r, hc, rfl⟩, h₆⟩
  · cases hout
    obtain ⟨rfl, rfl⟩ := h₆
    exact Or.inl ⟨text, c, e, r, error, hv.symm, hc, rfl, rfl⟩

/-- From a box that was initialised: the `try` block runs, its rejection becomes error results, and
the box is cleaned up. -/
theorem eval_guardedBatch {out : Except JsString (List ExecutionResult)}
    {handler : JsString → JsString}
    (h : (((runBatch boxId code langConfig testCases config boxPath).tryCatch fun error ↦
      pure (buildErrorResults testCases (handler error) .SE)).tryFinally
        (destroyBox boxId)).Eval tr out) :
    ∃ batch r results outcome, tr = batch ++ [⟨.exec (.cleanup boxId), r⟩] ∧ out = .ok results ∧
      (runBatch boxId code langConfig testCases config boxPath).Eval batch outcome ∧
      (outcome = .ok results ∨
        ∃ e error, outcome = .error e ∧ results = buildErrorResults testCases error .SE) := by
  obtain ⟨batch, tr₂, rfl, h₁, h₂⟩ :=
    (Program.eval_tryFinally_iff fun _ _ he ↦ by simp [eval_destroyBox_iff] at he).mp h
  obtain ⟨-, r, rfl⟩ := eval_destroyBox_iff.mp h₂
  rcases Program.eval_tryCatch_iff.mp h₁ with ⟨results, hr, rfl⟩ |
    ⟨e, tr₃, tr₄, rfl, hr, rfl, rfl⟩
  · exact ⟨batch, r, results, _, rfl, rfl, hr, Or.inl rfl⟩
  · exact ⟨tr₃, r, _, _, by rw [List.append_nil], rfl, hr, Or.inr ⟨e, _, rfl, rfl⟩⟩

/-- The three ways through `executeBatch`: the language is not supported, the box cannot be
initialised, or the `try` block runs and the box is cleaned up. -/
theorem eval_executeBatch_cases {partialConfig : PartialConfig}
    {out : Except JsString (List ExecutionResult)}
    (h : (executeBatch boxId code language testCases partialConfig).Eval tr out) :
    (languages language = none ∧ tr = [] ∧
      ∃ error, out = .ok (buildErrorResults testCases error .SE)) ∨
    (∃ langConfig e, languages language = some langConfig ∧ tr = [⟨.exec (.init boxId), .error e⟩] ∧
      ∃ error, out = .ok (buildErrorResults testCases error .SE)) ∨
    ∃ langConfig stdout batch r results outcome, languages language = some langConfig ∧
      tr = ⟨.exec (.init boxId), .ok stdout⟩ :: (batch ++ [⟨.exec (.cleanup boxId), r⟩]) ∧
      out = .ok results ∧ (runBatch boxId code langConfig testCases (mergeConfig partialConfig)
        stdout.trim).Eval batch outcome ∧
      (outcome = .ok results ∨
        ∃ e error, outcome = .error e ∧ results = buildErrorResults testCases error .SE) := by
  rw [executeBatch] at h
  cases hl : languages language with
  | none =>
    rw [hl] at h
    obtain ⟨rfl, rfl⟩ := h
    exact Or.inl ⟨rfl, rfl, _, rfl⟩
  | some langConfig =>
    rw [hl] at h
    refine Or.inr ?_
    obtain ⟨r, tr₁, tr₂, rfl, h₁, h₂⟩ := Program.eval_attempt_bind_iff.mp h
    obtain ⟨r, rfl, rfl⟩ := eval_initBox_iff.mp h₁
    cases r with
    | error e =>
      obtain ⟨rfl, rfl⟩ := h₂
      exact Or.inl ⟨langConfig, e, rfl, rfl, _, rfl⟩
    | ok stdout =>
      obtain ⟨batch, r', results, outcome, rfl, rfl, hrun, hresults⟩ := eval_guardedBatch h₂
      exact Or.inr ⟨langConfig, stdout, batch, r', results, outcome, rfl, rfl, rfl, hrun, hresults⟩

/-- The box and the language a trace prepares are those of its only init. -/
theorem Prepared.unique {stdout boxPath' : JsString} {langConfig' : LanguageConfig}
    (h : Prepared boxId code language (⟨.exec (.init boxId), .ok stdout⟩ :: tr) langConfig'
      boxPath')
    (hl : languages language = some langConfig)
    (htr : ∀ stdout', ⟨.exec (.init boxId), .ok stdout'⟩ ∉ tr) :
    langConfig' = langConfig ∧ boxPath' = stdout.trim := by
  obtain ⟨stdout', rfl, hmem⟩ := h.initialised
  have hl' := h.supported
  rw [hl] at hl'
  refine ⟨(Option.some.inj hl').symm, ?_⟩
  rcases List.mem_cons.mp hmem with he | he
  · simp only [Sigma.mk.injEq, heq_eq_eq, true_and, Except.ok.injEq] at he
    rw [he]
  · exact absurd he (htr stdout')

/-- **What `executeBatch` returns.** It always resolves. Unless the trace prepares the box, the
results are error results; if it does, it contains the loop over the tests, and the results are the
loop's, or error results when the loop rejected. -/
theorem eval_executeBatch {partialConfig : PartialConfig}
    {out : Except JsString (List ExecutionResult)}
    (h : (executeBatch boxId code language testCases partialConfig).Eval tr out) :
    ∃ results, out = .ok results ∧
      (((∀ langConfig boxPath, ¬Prepared boxId code language tr langConfig boxPath) ∧
        ∃ error status, status ≠ .OK ∧ results = buildErrorResults testCases error status) ∨
      ∃ langConfig boxPath, Prepared boxId code language tr langConfig boxPath ∧
        ∃ loop outcome, loop <:+: tr ∧
          (Program.collect (runTest boxId langConfig (mergeConfig partialConfig) boxPath)
            testCases).Eval loop outcome ∧
          (outcome = .ok results ∨ ∃ error, results = buildErrorResults testCases error .SE)) := by
  rcases eval_executeBatch_cases h with ⟨hl, rfl, error, rfl⟩ |
    ⟨langConfig, e, hl, rfl, error, rfl⟩ |
    ⟨langConfig, stdout, batch, r', results, outcome, hl, rfl, rfl, hrun, hresults⟩
  · refine ⟨_, rfl, Or.inl ⟨fun langConfig boxPath hp ↦ ?_, error, .SE, by simp, rfl⟩⟩
    rw [hp.supported] at hl
    cases hl
  · refine ⟨_, rfl, Or.inl ⟨fun langConfig boxPath hp ↦ ?_, error, .SE, by simp, rfl⟩⟩
    obtain ⟨stdout, -, hmem⟩ := hp.initialised
    simp at hmem
  refine ⟨results, rfl, ?_⟩
  -- the box is there: what is missing for it to be prepared is the source or the binary
  have herror : ∀ {e}, outcome = .error e →
      ∃ error status, status ≠ .OK ∧ results = buildErrorResults testCases error status := by
    rintro e rfl
    rcases hresults with hr | ⟨_, error, -, hr⟩
    · cases hr
    · exact ⟨error, .SE, by simp, hr⟩
  rcases eval_runBatch hrun with ⟨e, hv, rfl, hout⟩ | ⟨text, e, hv, rfl, hout⟩ |
    ⟨text, c, e, r, error, hv, hc, rfl, rfl⟩ | ⟨text, pre, loop, hv, rfl, hc, hloop⟩
  · refine Or.inl ⟨fun langConfig' boxPath' hp ↦ ?_, herror hout⟩
    obtain ⟨text, rfl, hlen, -⟩ := hp.accepted
    rw [validateCode_eq_ok_iff.mpr ⟨rfl, hlen⟩] at hv
    cases hv
  · refine Or.inl ⟨fun langConfig' boxPath' hp ↦ ?_, herror hout⟩
    obtain ⟨text', -, -, hmem⟩ := hp.accepted
    simp at hmem
  · refine Or.inl ⟨fun langConfig' boxPath' hp ↦ ?_, ?_⟩
    · obtain ⟨rfl, rfl⟩ := hp.unique hl (by simp)
      obtain ⟨stdout', hmem⟩ := hp.compiled c hc
      simp at hmem
    · rcases hresults with hr | ⟨_, _, hr, -⟩
      · cases hr
        exact ⟨error, .CE, by simp, rfl⟩
      · cases hr
  · obtain ⟨rfl, hlen⟩ := validateCode_eq_ok_iff.mp hv
    refine Or.inr ⟨langConfig, stdout.trim, ⟨hl, ⟨stdout, rfl, by simp⟩,
      ⟨text, rfl, hlen, by simp⟩, fun c hc' ↦ ?_⟩, loop, outcome, ?_, hloop, ?_⟩
    · obtain ⟨stdout', hmem⟩ := hc.mem hc'
      exact ⟨stdout', by simp [hmem]⟩
    · exact ⟨[⟨.exec (.init boxId), .ok stdout⟩,
        ⟨.writeFile ⟨stdout.trim, sourceFile langConfig⟩ text, .ok ()⟩] ++ pre,
        [⟨.exec (.cleanup boxId), r'⟩], by simp⟩
    · rcases hresults with hr | ⟨_, error, -, hr⟩
      · exact Or.inl hr
      · exact Or.inr ⟨error, hr⟩

/-- There is one result per test on every path. -/
theorem length_executeBatch {partialConfig : PartialConfig} {results : List ExecutionResult}
    (h : (executeBatch boxId code language testCases partialConfig).Eval tr (.ok results)) :
    results.length = testCases.length := by
  obtain ⟨results', hout, ⟨-, error, status, -, rfl⟩ |
    ⟨langConfig, boxPath, -, loop, outcome, -, hloop, hr⟩⟩ := eval_executeBatch h
  · cases hout
    exact length_buildErrorResults ..
  · cases hout
    rcases hr with rfl | ⟨error, rfl⟩
    · obtain ⟨segments, -, -, hlen⟩ := Program.eval_collect_ok_iff.mp hloop
      exact hlen
    · exact length_buildErrorResults ..

end JudgeIt
