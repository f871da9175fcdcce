import JudgeIt.Execution.Box

/-!
# One box for all tests

A batch initialises its box once, so that a test finds what the tests before it left. The shell
empties the output and the error file, and a test with an input overwrites that of the test before
it; every other file is as the program left it.

`executeBatch_isolated`: when the program leaves the other files alone, a test with an input comes
to what it comes to in a batch of its own. `not_executeBatch_isolated` shows a program that tells
its second test from its first.
-/

namespace JudgeIt

open Async Judging JsString

/-- The files that are written anew for each test. -/
def scratchFiles : List JsString := ["input.txt", "output.txt", "error.txt"]

/-- The program, on this input, leaves every other file as it finds it. -/
def Machine.LeavesAlone (m : Machine) (stdin : JsString) : Prop :=
  ∀ files : Files, ∀ name ∉ scratchFiles, (m.run files stdin).files name = files name

/-- What a batch comes to, as a function of its tests: error results on one account, or the results
of the tests run one after the other from the same files. -/
def BatchAccount (m : Machine) (results : List TestCase → List ExecutionResult) : Prop :=
  (∃ error status, ∀ tests, results tests = buildErrorResults tests error status) ∨
  ∃ files, ∀ tests, results tests = outputs m.testResult m.filesAfter tests files

variable {m : Machine} {boxId : ℕ} {code language : Option JsString} {langConfig : LanguageConfig}
  {testCases : List TestCase} {config : ExecutionConfig} {partialConfig : PartialConfig}
  {boxPath : JsString} {files : Files}

/-! ## What a batch comes to -/

/-- What compiling the files comes to. -/
def Machine.compiled (m : Machine) (files : Files) : CompileResult :=
  match m.compile files with
  | (.ok _, _) => { success := true }
  | (.error _, files₁) =>
    { success := false
      error := some (truncate ((files₁ "compile_error.txt").getD "Compilation failed") 1000) }

theorem result_compileSource {c : CompileConfig} {source : JsString} {s : Box} :
    (compileSource boxId source c boxPath).result m.respond s
      = (.ok (m.compiled s.files), { s with files := (m.compile s.files).2 }) := by
  have hcompile : (exec (.compile (compileCommand boxId source c))).result m.respond s
      = ((m.compile s.files).1, { s with files := (m.compile s.files).2 }) := Machine.result_exec
  rw [compileSource, Program.result_attempt_bind hcompile, Machine.compiled]
  obtain ⟨out, files'⟩ := m.compile s.files
  cases out with
  | ok stdout => rfl
  | error e =>
    simp only [Program.bind_eq, Program.tryCatch, Program.bind_assoc]
    rw [Program.result_attempt_bind Machine.result_readFile]
    dsimp only
    cases files' "compile_error.txt" <;> rfl

/-- The compilation step comes to the same from every box with the same files. -/
theorem result_compileStep (m : Machine) (boxId : ℕ) (langConfig : LanguageConfig)
    (boxPath : JsString) (files : Files) :
    (∃ files', ∀ tests (s : Box), s.files = files → ∃ s' : Box, s'.files = files' ∧
      (compileStep boxId langConfig tests boxPath).result m.respond s = (.ok none, s')) ∨
    ∃ error, ∀ tests (s : Box), s.files = files → ∃ s' : Box,
      (compileStep boxId langConfig tests boxPath).result m.respond s
        = (.ok (some (buildErrorResults tests error .CE)), s') := by
  cases hc : langConfig.compile with
  | none =>
    refine Or.inl ⟨files, fun tests s hs ↦ ⟨s, hs, ?_⟩⟩
    rw [compileStep, hc]
    rfl
  | some c =>
    have hstep : ∀ tests (s : Box), (compileStep boxId langConfig tests boxPath).result m.respond s
        = (if !(m.compiled s.files).success then
            .pure (some (buildErrorResults tests ((m.compiled s.files).error.getD []) .CE))
          else (exec (.chmod ⟨boxPath, "solution"⟩)).attempt.bind fun _ ↦ .pure none).result
            m.respond { s with files := (m.compile s.files).2 } := by
      intro tests s
      rw [compileStep, hc]
      exact Program.result_bind_ok result_compileSource
    cases hsuccess : (m.compiled files).success with
    | true =>
      refine Or.inl ⟨(m.compile files).2, fun tests s hs ↦ ⟨{ s with files := (m.compile files).2 },
        rfl, ?_⟩⟩
      rw [hstep, hs, hsuccess]
      exact Program.result_attempt_bind Machine.result_exec
    | false =>
      refine Or.inr ⟨(m.compiled files).error.getD [], fun tests s hs ↦
        ⟨{ s with files := (m.compile files).2 }, ?_⟩⟩
      rw [hstep, hs, hsuccess]
      rfl

theorem result_runBatch (m : Machine) (boxId : ℕ) (code : Option JsString)
    (langConfig : LanguageConfig) (config : ExecutionConfig) (boxPath : JsString) (files : Files) :
    (∃ e, ∀ tests (s : Box), s.files = files → ∃ s' : Box,
      (runBatch boxId code langConfig tests config boxPath).result m.respond s = (.error e, s')) ∨
    ∃ results, BatchAccount m results ∧ ∀ tests (s : Box), s.files = files → ∃ s' : Box,
      (runBatch boxId code langConfig tests config boxPath).result m.respond s
        = (.ok (results tests), s') := by
  cases hv : validateCode code with
  | error e =>
    refine Or.inl ⟨e, fun tests s _ ↦ ⟨s, ?_⟩⟩
    rw [runBatch, hv]
    rfl
  | ok text =>
    refine Or.inr ?_
    have hround : ∀ tc (s : Box), ∃ s' : Box, s'.files = m.filesAfter tc s.files ∧
        (runTest boxId langConfig config boxPath tc).result m.respond s
          = (.ok (m.testResult tc s.files), s') := fun tc s ↦ Machine.result_runTest
    -- The source is written, and then the compilation step decides.
    rcases result_compileStep m boxId langConfig boxPath
      (Function.update files (sourceFile langConfig) (some text)) with ⟨files', h⟩ | ⟨error, h⟩
    · refine ⟨_, Or.inr ⟨files', fun tests ↦ rfl⟩, fun tests s hs ↦ ?_⟩
      obtain ⟨s₁, rfl, hstep⟩ := h tests
        { s with files := Function.update s.files (sourceFile langConfig) (some text) } (by rw [hs])
      obtain ⟨s₂, hloop⟩ := Program.result_collect hround tests s₁
      refine ⟨s₂, ?_⟩
      rw [runBatch, hv]
      exact (Program.result_bind_ok hstep).trans hloop
    · refine ⟨_, Or.inl ⟨error, .CE, fun tests ↦ rfl⟩, fun tests s hs ↦ ?_⟩
      obtain ⟨s₁, hstep⟩ := h tests
        { s with files := Function.update s.files (sourceFile langConfig) (some text) } (by rw [hs])
      refine ⟨s₁, ?_⟩
      rw [runBatch, hv]
      exact Program.result_bind_ok hstep

/-- The box is cleaned up behind the batch, and a rejection of the `try` block becomes error
results. -/
theorem result_guardedBatch {x : Judging (List ExecutionResult)} {handler : JsString → JsString}
    {s s' : Box} {out : Except JsString (List ExecutionResult)}
    (h : x.result m.respond s = (out, s')) :
    ((x.tryCatch fun error ↦ pure (buildErrorResults testCases (handler error) .SE)).tryFinally
      (destroyBox boxId)).result m.respond s = (.ok (match out with
        | .ok results => results
        | .error error => buildErrorResults testCases (handler error) .SE), s'.cleared) := by
  have hcleanup : (destroyBox boxId).result m.respond s' = (.ok (), s'.cleared) :=
    Program.result_attempt_bind Machine.result_exec
  refine Program.result_tryFinally ?_ hcleanup
  rw [Program.tryCatch, Program.result_attempt_bind h]
  cases out <;> rfl

/-- **What a batch comes to** does not depend on the box before it, and on its tests only through
the account. -/
theorem result_executeBatch (m : Machine) (boxId : ℕ) (code language : Option JsString)
    (config : PartialConfig) : ∃ results, BatchAccount m results ∧ ∀ tests (s : Box),
      ((executeBatch boxId code language tests config).result m.respond s).1
        = .ok (results tests) := by
  cases hl : languages language with
  | none =>
    refine ⟨_, Or.inl ⟨JsString.ofString "Unsupported language: " ++ language.getD "undefined", .SE,
      fun tests ↦ rfl⟩, fun tests s ↦ ?_⟩
    rw [executeBatch, hl]
    rfl
  | some langConfig =>
    have hinit : ∀ s, (initBox boxId).result m.respond s = (.ok m.boxPath.trim, s.cleared) :=
      fun s ↦ rfl
    have hstart : ∀ tests s, (executeBatch boxId code language tests config).result m.respond s
        = (((runBatch boxId code langConfig tests (mergeConfig config) m.boxPath.trim).tryCatch
          fun error ↦ pure (buildErrorResults tests
            (JsString.ofString "Internal execution error, " ++ error) .SE)).tryFinally
              (destroyBox boxId)).result m.respond s.cleared := by
      intro tests s
      rw [executeBatch, hl]
      exact Program.result_attempt_bind (hinit s)
    rcases result_runBatch m boxId code langConfig (mergeConfig config) m.boxPath.trim
      (fun _ ↦ none) with ⟨e, h⟩ | ⟨results, haccount, h⟩
    · refine ⟨_, Or.inl ⟨JsString.ofString "Internal execution error, " ++ e, .SE, fun tests ↦ rfl⟩,
        fun tests s ↦ ?_⟩
      obtain ⟨s', hrun⟩ := h tests s.cleared rfl
      rw [hstart, result_guardedBatch hrun]
    · refine ⟨results, haccount, fun tests s ↦ ?_⟩
      obtain ⟨s', hrun⟩ := h tests s.cleared rfl
      rw [hstart, result_guardedBatch hrun]

/-! ## A test on its own -/

/-- Where the other files are the same, a test with an input runs the same. -/
theorem report_eq {files' : Files} {tc : TestCase} (hinput : tc.input.isSome)
    (h : ∀ name ∉ scratchFiles, files' name = files name) :
    m.report tc files' = m.report tc files := by
  have hstart : redirected (withInput files' tc) = redirected (withInput files tc) := by
    obtain ⟨input, hin⟩ := Option.isSome_iff_exists.mp hinput
    simp only [redirected, withInput, hin]
    funext name
    simp only [Function.update_apply]
    split_ifs with herror houtput hinput
    · rfl
    · rfl
    · rfl
    · exact h name (by simp [scratchFiles, hinput, houtput, herror])
  rw [Machine.report, Machine.report, hstart]

/-- A run that leaves the other files alone does so in a batch. -/
theorem filesAfter_eq {tc : TestCase} (h : m.LeavesAlone (tc.input.getD [])) (files : Files)
    {name : JsString} (hname : name ∉ scratchFiles) : m.filesAfter tc files name = files name := by
  rw [Machine.filesAfter, Machine.report, h _ name hname]
  simp only [scratchFiles, List.mem_cons, List.not_mem_nil, or_false, not_or] at hname
  obtain ⟨hin, hout, herr⟩ := hname
  rw [redirected, Function.update_of_ne herr, Function.update_of_ne hout, withInput]
  cases tc.input with
  | none => rfl
  | some input => exact Function.update_of_ne hin ..

/-- **A test on its own.** When the program leaves all files but the three that are written anew
alone on the inputs of the tests before, a test with an input has the result it has in a batch of
its own, whatever box the two batches start from. -/
theorem executeBatch_isolated {s s₁ : Box} {i : ℕ} {tc : TestCase} (hi : testCases[i]? = some tc)
    (hinput : tc.input.isSome)
    (halone : ∀ before ∈ testCases.take i, m.LeavesAlone (before.input.getD [])) :
    ∃ results result,
      ((executeBatch boxId code language testCases partialConfig).result m.respond s).1
        = .ok results ∧
      ((executeBatch boxId code language [tc] partialConfig).result m.respond s₁).1
        = .ok [result] ∧
      results[i]? = some result := by
  obtain ⟨results, haccount, hresults⟩ := result_executeBatch m boxId code language partialConfig
  rcases haccount with ⟨error, status, herror⟩ | ⟨files, houtputs⟩
  · refine ⟨_, _, hresults testCases s, (hresults [tc] s₁).trans (congrArg _ (herror [tc])), ?_⟩
    rw [herror, buildErrorResults, List.getElem?_map, hi]
    rfl
  · refine ⟨_, _, hresults testCases s, (hresults [tc] s₁).trans (congrArg _ (houtputs [tc])), ?_⟩
    rw [houtputs]
    -- What the tests before keep: the files that are not written anew.
    refine getElem?_outputs_of_inv (P := fun files' ↦ ∀ name ∉ scratchFiles,
      files' name = files name) (fun _ _ ↦ rfl) hi (fun before hbefore files' hkeep name hname ↦ ?_)
      fun files' hkeep ↦ ?_
    · rw [filesAfter_eq (halone before hbefore) files' hname, hkeep name hname]
    · rw [Machine.testResult, Machine.testResult, report_eq hinput hkeep]

/-- A program that prints its input. -/
def echoing : Machine where
  boxPath := "/box/0"
  clock := fun n ↦ n
  compile := fun files ↦ (.ok [], files)
  run := fun files stdin ↦
    { files := Function.update files "output.txt" (some stdin)
      metadata := "exitcode:0"
      outcome := .ok [] }

/-- A box in which nothing has happened. -/
def Box.fresh : Box := ⟨fun _ ↦ none, fun _ ↦ none, 0⟩

/-- Its second test has the result it has alone. -/
theorem executeBatch_isolated_echo : ∃ results result,
    ((executeBatch 0 (some "print(input())") (some "python")
      [⟨"1", some "5", some "5"⟩, ⟨"2", some "7", some "7"⟩] {}).result echoing.respond
        Box.fresh).1 = .ok results ∧
    ((executeBatch 0 (some "print(input())") (some "python") [⟨"2", some "7", some "7"⟩]
      {}).result echoing.respond Box.fresh).1 = .ok [result] ∧
    results[1]? = some result := by
  refine executeBatch_isolated rfl rfl fun before hbefore files name hname ↦ ?_
  have hout : name ≠ ofString "output.txt" := fun h ↦ hname (by simp [scratchFiles, h])
  exact Function.update_of_ne hout ..

/-- A program that prints whether it finds a file, and leaves it there. -/
def marking : Machine where
  boxPath := "/box/0"
  clock := fun n ↦ n
  compile := fun files ↦ (.ok [], files)
  run := fun files _ ↦
    { files := Function.update (Function.update files "output.txt"
        (some (ofString (if (files "seen").isSome then "1" else "0")))) "seen" (some [])
      metadata := "exitcode:0"
      outcome := .ok [] }

/-- Its second test prints something else than it prints alone. -/
theorem not_executeBatch_isolated : ¬∀ (m : Machine) (s s₁ : Box) (boxId : ℕ)
    (code language : Option JsString) (testCases : List TestCase) (config : PartialConfig) (i : ℕ)
    (tc : TestCase), testCases[i]? = some tc →
    ((executeBatch boxId code language testCases config).result m.respond s).1.map (·[i]?)
      = ((executeBatch boxId code language [tc] config).result m.respond s₁).1.map (·[0]?) := by
  intro h
  have heq := h marking Box.fresh Box.fresh 0 (some "print(1)") (some "python")
    [⟨"1", some "5", none⟩, ⟨"2", some "7", none⟩] {} 1 ⟨"2", some "7", none⟩ rfl
  have houtput := congrArg (fun r ↦ r.map (·.bind ExecutionResult.output)) heq
  exact absurd houtput (by decide +kernel)

end JudgeIt
