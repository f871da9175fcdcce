import JudgeIt.Execution.Output

/-!
# What a batch reports when a step fails

`executeBatch` has many ways out: two early returns, a return inside its `try` block, a `catch` that
gives up what the loop has gathered, and a `finally`. The judge relies on what they have in common:
one result per test, in order, and a box that is cleaned up if it was initialised.

The errors that are not handled where they occur are those of `validateCode` and of writing a file.
Every other command may fail without ending the batch.
-/

namespace JudgeIt

open Async Judging

/-- Writing a file failed. -/
def WriteFailed (x : Event Call.Res) : Prop :=
  ∃ file content e, x = ⟨.writeFile file content, .error e⟩

/-- The compiler failed. -/
def CompileFailed (x : Event Call.Res) : Prop :=
  ∃ command e, x = ⟨.exec (.compile command), .error e⟩

/-- The cleanup of a box. -/
def IsCleanup (boxId : ℕ) (x : Event Call.Res) : Prop := x.1 = .exec (.cleanup boxId)

instance (boxId : ℕ) : DecidablePred (IsCleanup boxId) := fun _ ↦
  inferInstanceAs (Decidable (_ = _))

/-- All tests get the same error, and nothing else is reported. -/
def AllFailed (status : Status) (testCases : List TestCase) (results : List ExecutionResult) :
    Prop :=
  ∃ error, results = buildErrorResults testCases error status

variable {boxId : ℕ} {code language : Option JsString} {langConfig : LanguageConfig}
  {testCases : List TestCase} {config : ExecutionConfig} {partialConfig : PartialConfig}
  {boxPath : JsString} {tr : List (Event Call.Res)} {results : List ExecutionResult}

/-! ## The loop -/

theorem eval_runTest {testCase : TestCase} {out : Except JsString ExecutionResult}
    (h : (runTest boxId langConfig config boxPath testCase).Eval tr out) : ∃ out',
      (runTestCase boxId langConfig (sourceFile langConfig) testCase config boxPath).Eval tr out' ∧
      out = out'.map fun result ↦ { result with testCaseName := some testCase.name } := by
  rcases Program.eval_bind_iff.mp h with ⟨e, he, rfl⟩ | ⟨result, tr₁, tr₂, rfl, h₁, rfl, rfl⟩
  · exact ⟨_, he, rfl⟩
  · rw [List.append_nil]
    exact ⟨_, h₁, rfl⟩

theorem runTest_writeFailed_iff {testCase : TestCase} {out : Except JsString ExecutionResult}
    (h : (runTest boxId langConfig config boxPath testCase).Eval tr out) :
    (∃ x ∈ tr, WriteFailed x) ↔ ∃ e, out = .error e := by
  obtain ⟨out', htest, rfl⟩ := eval_runTest h
  obtain ⟨time, r, ⟨input, e, -, rfl, rfl⟩ | ⟨ran, output, stderr, info, rfl, rfl⟩⟩ :=
    eval_runTestCase htest
  · exact iff_of_true ⟨_, .tail _ (.head _), _, _, e, rfl⟩ ⟨e, rfl⟩
  · refine iff_of_false ?_ (by simp [Except.map])
    rintro ⟨x, hx, file, content, e, rfl⟩
    cases hin : testCase.input <;> simp [inputWritten, hin, runEvents] at hx

theorem runTest_not_compileFailed {testCase : TestCase} {out : Except JsString ExecutionResult}
    (h : (runTest boxId langConfig config boxPath testCase).Eval tr out) :
    ∀ x ∈ tr, ¬CompileFailed x := by
  obtain ⟨out', htest, rfl⟩ := eval_runTest h
  rintro x hx ⟨command, e, rfl⟩
  obtain ⟨time, r, ⟨input, e, -, rfl, rfl⟩ | ⟨ran, output, stderr, info, rfl, rfl⟩⟩ :=
    eval_runTestCase htest
  · simp at hx
  · cases hin : testCase.input <;> simp [inputWritten, hin, runEvents] at hx

/-- The loop rejects exactly when a file could not be written, and it compiles nothing. -/
theorem collect_runTest_failures {out : Except JsString (List ExecutionResult)}
    (h : (Program.collect (runTest boxId langConfig config boxPath) testCases).Eval tr out) :
    ((∃ x ∈ tr, WriteFailed x) ↔ ∃ e, out = .error e) ∧ ∀ x ∈ tr, ¬CompileFailed x :=
  ⟨Program.eval_collect_error_iff (fun _ _ _ h ↦ runTest_writeFailed_iff h) h,
    Program.Eval.forall_mem_collect (fun _ _ _ h ↦ runTest_not_compileFailed h) h⟩

theorem names_collect_runTest
    (h : (Program.collect (runTest boxId langConfig config boxPath) testCases).Eval tr
      (.ok results)) :
    results.map (·.testCaseName) = testCases.map fun testCase ↦ some testCase.name := by
  induction testCases generalizing tr results with
  | nil =>
    obtain ⟨-, hout⟩ := h
    cases hout
    rfl
  | cons testCase testCases ih =>
    rcases Program.eval_bind_iff.mp h with ⟨e, -, hout⟩ | ⟨result, tr₁, tr₂, rfl, h₁, h₂⟩
    · cases hout
    rcases Program.eval_bind_iff.mp h₂ with ⟨e, -, hout⟩ | ⟨results', tr₃, tr₄, rfl, h₃, -, hout⟩
    · cases hout
    cases hout
    obtain ⟨out', -, hout⟩ := eval_runTest h₁
    cases out' with
    | error e => cases hout
    | ok result' =>
      cases hout
      rw [List.map_cons, List.map_cons, ih h₃]

/-! ## The `try` block -/

theorem not_failed_before_loop (path : BoxFile) (text : JsString) {pre : List (Event Call.Res)}
    (h : CompiledBy boxId langConfig boxPath pre) :
    ∀ x ∈ ⟨.writeFile path text, .ok ()⟩ :: pre, ¬WriteFailed x ∧ ¬CompileFailed x := by
  rcases h with ⟨-, rfl⟩ | ⟨c, stdout, r, -, rfl⟩
  · simp [WriteFailed, CompileFailed]
  · simp [WriteFailed, CompileFailed]

theorem eval_runBatch_failures {out : Except JsString (List ExecutionResult)}
    (h : (runBatch boxId code langConfig testCases config boxPath).Eval tr out) :
    ((∃ e, validateCode code = .error e) ∨ (∃ x ∈ tr, WriteFailed x) ↔ ∃ e, out = .error e) ∧
    ((∃ x ∈ tr, CompileFailed x) → ∃ results, out = .ok results ∧ AllFailed .CE testCases results) ∧
    ∀ results, out = .ok results → (∀ x ∈ tr, ¬CompileFailed x) → ∃ loop, loop <:+ tr ∧
      (Program.collect (runTest boxId langConfig config boxPath) testCases).Eval loop
        (.ok results) := by
  rcases eval_runBatch h with ⟨e, hv, rfl, rfl⟩ | ⟨text, e, hv, rfl, rfl⟩ |
    ⟨text, c, e, r, error, hv, hc, rfl, rfl⟩ | ⟨text, pre, loop, hv, rfl, hc, hloop⟩
  · refine ⟨iff_of_true (Or.inl ⟨e, hv⟩) ⟨e, rfl⟩, ?_, fun _ hout ↦ nomatch hout⟩
    rintro ⟨x, hx, -⟩
    cases hx
  · refine ⟨iff_of_true (Or.inr ⟨_, .head _, _, _, e, rfl⟩) ⟨e, rfl⟩, ?_, fun _ hout ↦ nomatch hout⟩
    rintro ⟨x, hx, command, e', rfl⟩
    simp at hx
  · refine ⟨iff_of_false ?_ (by simp), fun _ ↦ ⟨_, rfl, error, rfl⟩, fun results hout hnot ↦ ?_⟩
    · rintro (⟨e', he'⟩ | ⟨x, hx, file, content, e', rfl⟩)
      · rw [hv] at he'
        cases he'
      · simp at hx
    · exact absurd ⟨_, e, rfl⟩ (hnot _ (.tail _ (.head _)))
  · have hpre := not_failed_before_loop ⟨boxPath, sourceFile langConfig⟩ text hc
    obtain ⟨hfatal, hrounds⟩ := collect_runTest_failures hloop
    have hwrite : (∃ x ∈ ⟨.writeFile ⟨boxPath, sourceFile langConfig⟩ text, .ok ()⟩ :: pre ++ loop,
        WriteFailed x) ↔ ∃ x ∈ loop, WriteFailed x := by
      simp only [List.mem_append, or_and_right, exists_or]
      exact or_iff_right fun ⟨x, hx, hfailed⟩ ↦ (hpre x hx).1 hfailed
    have hnot : ∀ x ∈ ⟨.writeFile ⟨boxPath, sourceFile langConfig⟩ text, .ok ()⟩ :: pre ++ loop,
        ¬CompileFailed x :=
      List.forall_mem_append.mpr ⟨fun x hx ↦ (hpre x hx).2, hrounds⟩
    refine ⟨?_, fun ⟨x, hx, hcompile⟩ ↦ absurd hcompile (hnot x hx),
      fun results hout _ ↦ ⟨loop, List.suffix_append _ loop, hout ▸ hloop⟩⟩
    rw [hwrite, hfatal, hv]
    simp

/-! ## The batch -/

theorem names_of_allFailed {status : Status} (h : AllFailed status testCases results) :
    results.map (·.testCaseName) = testCases.map fun testCase ↦ some testCase.name := by
  obtain ⟨error, rfl⟩ := h
  simp [buildErrorResults]

theorem names_executeBatch
    (h : (executeBatch boxId code language testCases partialConfig).Eval tr (.ok results)) :
    results.map (·.testCaseName) = testCases.map fun testCase ↦ some testCase.name := by
  rcases eval_executeBatch_cases h with ⟨-, -, error, hout⟩ | ⟨langConfig, e, -, -, error, hout⟩ |
    ⟨langConfig, stdout, batch, r, results', outcome, -, -, hout, hrun, hresults⟩
  · exact names_of_allFailed ⟨error, Except.ok.inj hout⟩
  · exact names_of_allFailed ⟨error, Except.ok.inj hout⟩
  · cases hout
    rcases hresults with rfl | ⟨e, error, -, hr⟩
    · obtain ⟨-, hcompile, hloop⟩ := eval_runBatch_failures hrun
      by_cases hx : ∃ x ∈ batch, CompileFailed x
      · obtain ⟨results', hout, hall⟩ := hcompile hx
        cases hout
        exact names_of_allFailed hall
      · push Not at hx
        obtain ⟨loop, -, hloop⟩ := hloop results rfl hx
        exact names_collect_runTest hloop
    · exact names_of_allFailed ⟨error, hr⟩

/-- Between init and cleanup a box is neither initialised nor cleaned up. -/
theorem runBatch_inside {batch : List (Event Call.Res)}
    {outcome : Except JsString (List ExecutionResult)}
    (h : (runBatch boxId code langConfig testCases config boxPath).Eval batch outcome) :
    ∀ x ∈ batch, (∀ b, x.1 ≠ .exec (.init b)) ∧ ∀ b, ¬IsCleanup b x := by
  intro x hx
  have hin : x.1.InBox boxId := runBatch_keeps.forall_mem h x hx
  refine ⟨fun b hb ↦ ?_, fun b hb ↦ ?_⟩
  · rw [hb] at hin
    exact hin
  · rw [hb] at hin
    exact hin

/-- **The box is cleaned up** exactly once if its init succeeded, and not at all otherwise. -/
theorem cleanup_executeBatch {out : Except JsString (List ExecutionResult)}
    (h : (executeBatch boxId code language testCases partialConfig).Eval tr out) :
    ((∃ stdout, ⟨.exec (.init boxId), .ok stdout⟩ ∈ tr) → tr.countP (IsCleanup boxId) = 1) ∧
    ((∀ stdout, ⟨.exec (.init boxId), .ok stdout⟩ ∉ tr) → ∀ b, ∀ x ∈ tr, ¬IsCleanup b x) ∧
    ∀ b, ∀ x ∈ tr, IsCleanup b x → b = boxId := by
  rcases eval_executeBatch_cases h with ⟨-, rfl, -⟩ | ⟨langConfig, e, -, rfl, -⟩ |
    ⟨langConfig, stdout, batch, r, results, outcome, -, rfl, -, hrun, -⟩
  · simp
  · simp [IsCleanup]
  · have hinside := runBatch_inside hrun
    refine ⟨fun _ ↦ ?_, fun hinit ↦ absurd List.mem_cons_self (hinit stdout), fun b x hx hc ↦ ?_⟩
    · have hzero : batch.countP (IsCleanup boxId) = 0 :=
        List.countP_eq_zero.mpr fun x hx ↦ by simpa using (hinside x hx).2 boxId
      rw [List.countP_cons_of_neg (by simp [IsCleanup]), List.countP_append, hzero,
        List.countP_singleton]
      simp [IsCleanup]
    · rcases List.mem_cons.mp hx with rfl | hx
      · simp [IsCleanup] at hc
      rcases List.mem_append.mp hx with hx | hx
      · exact absurd hc ((hinside x hx).2 b)
      · obtain rfl := List.mem_singleton.mp hx
        simpa [IsCleanup, eq_comm] using hc

/-- What fails, fails in the `try` block: init and cleanup are no writes and no compilation. -/
theorem failed_in_batch (boxId : ℕ) (stdout : JsString) (batch : List (Event Call.Res))
    (r : Except JsString JsString) :
    ((∃ x ∈ ⟨.exec (.init boxId), .ok stdout⟩ :: (batch ++ [⟨.exec (.cleanup boxId), r⟩]),
      WriteFailed x) ↔ ∃ x ∈ batch, WriteFailed x) ∧
    ((∃ x ∈ ⟨.exec (.init boxId), .ok stdout⟩ :: (batch ++ [⟨.exec (.cleanup boxId), r⟩]),
      CompileFailed x) ↔ ∃ x ∈ batch, CompileFailed x) := by
  have hevents : ∀ {P : Event Call.Res → Prop}, ¬P ⟨.exec (.init boxId), .ok stdout⟩ →
      ¬P ⟨.exec (.cleanup boxId), r⟩ → ((∃ x ∈ ⟨.exec (.init boxId), .ok stdout⟩ ::
        (batch ++ [⟨.exec (.cleanup boxId), r⟩]), P x) ↔ ∃ x ∈ batch, P x) := by
    intro P hinit hcleanup
    simp [hinit, hcleanup]
  constructor
  · exact hevents (by simp [WriteFailed]) (by simp [WriteFailed])
  · exact hevents (by simp [CompileFailed]) (by simp [CompileFailed])

/-- A `try` block that rejected was caught, and all tests fail with `SE`. -/
theorem allFailed_of_caught {outcome : Except JsString (List ExecutionResult)}
    (h : outcome = .ok results ∨
      ∃ e error, outcome = .error e ∧ results = buildErrorResults testCases error .SE)
    (he : ∃ e, outcome = .error e) : AllFailed .SE testCases results := by
  obtain ⟨e, rfl⟩ := he
  rcases h with hr | ⟨_, error, -, rfl⟩
  · cases hr
  · exact ⟨error, rfl⟩

/-- **Every pattern of failures.** A batch always resolves, with one result per test in the order of
the tests, each named after its test. An unsupported language, a failed init, a source that is not
accepted and a file that cannot be written, at any point, make all of them `SE`; a failed
compilation makes all of them `CE`; otherwise they are the results of the loop. The box is cleaned
up exactly once if its init succeeded, and not at all otherwise. -/
theorem executeBatch_failures {out : Except JsString (List ExecutionResult)}
    (h : (executeBatch boxId code language testCases partialConfig).Eval tr out) :
    ∃ results, out = .ok results ∧
      results.map (·.testCaseName) = testCases.map (fun testCase ↦ some testCase.name) ∧
      (languages language = none → AllFailed .SE testCases results) ∧
      (∀ e, ⟨.exec (.init boxId), .error e⟩ ∈ tr → AllFailed .SE testCases results) ∧
      ((∃ e, validateCode code = .error e) → AllFailed .SE testCases results) ∧
      ((∃ x ∈ tr, WriteFailed x) → AllFailed .SE testCases results) ∧
      ((∃ x ∈ tr, CompileFailed x) → AllFailed .CE testCases results) ∧
      (languages language ≠ none → (∀ e, ⟨.exec (.init boxId), .error e⟩ ∉ tr) →
        (∀ e, validateCode code ≠ .error e) → (∀ x ∈ tr, ¬WriteFailed x ∧ ¬CompileFailed x) →
        ∃ langConfig boxPath loop, loop <:+: tr ∧
          (Program.collect (runTest boxId langConfig (mergeConfig partialConfig) boxPath)
            testCases).Eval loop (.ok results)) ∧
      ((∃ stdout, ⟨.exec (.init boxId), .ok stdout⟩ ∈ tr) → tr.countP (IsCleanup boxId) = 1) ∧
      ((∀ stdout, ⟨.exec (.init boxId), .ok stdout⟩ ∉ tr) → ∀ b, ∀ x ∈ tr, ¬IsCleanup b x) ∧
      ∀ b, ∀ x ∈ tr, IsCleanup b x → b = boxId := by
  rcases eval_executeBatch_cases h with ⟨hl, rfl, error, rfl⟩ |
    ⟨langConfig, e, hl, rfl, error, rfl⟩ |
    ⟨langConfig, stdout, batch, r, results, outcome, hl, rfl, rfl, hrun, hresults⟩
  · have hall : AllFailed .SE testCases (buildErrorResults testCases error .SE) := ⟨error, rfl⟩
    exact ⟨_, rfl, names_executeBatch h, fun _ ↦ hall, fun _ _ ↦ hall, fun _ ↦ hall, fun _ ↦ hall,
      by simp, fun hsome ↦ absurd hl hsome, cleanup_executeBatch h⟩
  · have hall : AllFailed .SE testCases (buildErrorResults testCases error .SE) := ⟨error, rfl⟩
    refine ⟨_, rfl, names_executeBatch h, fun _ ↦ hall, fun _ _ ↦ hall, fun _ ↦ hall, fun _ ↦ hall,
      ?_, fun _ hinit ↦ absurd (List.mem_singleton_self _) (hinit e), cleanup_executeBatch h⟩
    rintro ⟨x, hx, command, e', rfl⟩
    simp at hx
  · obtain ⟨hwrite, hcompile⟩ := failed_in_batch boxId stdout batch r
    obtain ⟨herror, hce, hloop⟩ := eval_runBatch_failures hrun
    have hse := allFailed_of_caught hresults
    refine ⟨results, rfl, names_executeBatch h, fun hnone ↦ ?_, fun e hmem ↦ ?_,
      fun hv ↦ hse (herror.mp (Or.inl hv)), fun hx ↦ hse (herror.mp (Or.inr (hwrite.mp hx))),
      fun hx ↦ ?_, fun _ _ hv hnot ↦ ?_, cleanup_executeBatch h⟩
    · rw [hl] at hnone
      cases hnone
    · have hin : ⟨.exec (.init boxId), .error e⟩ ∈ batch := by simpa using hmem
      exact absurd rfl ((runBatch_inside hrun _ hin).1 boxId)
    · obtain ⟨results', rfl, hall⟩ := hce (hcompile.mp hx)
      rcases hresults with hr | ⟨_, _, hr, -⟩
      · cases hr
        exact hall
      · cases hr
    · have hout : outcome = .ok results := by
        rcases hresults with hout | ⟨e, error, hout, -⟩
        · exact hout
        · exfalso
          rcases herror.mpr ⟨e, hout⟩ with ⟨e', he'⟩ | hx
          · exact hv e' he'
          · obtain ⟨x, hx, hw⟩ := hwrite.mpr hx
            exact (hnot x hx).1 hw
      obtain ⟨loop, hsuffix, hrun⟩ := hloop results hout fun x hx hc ↦
        (hnot x (List.mem_cons_of_mem _ (List.mem_append_left _ hx))).2 hc
      refine ⟨langConfig, stdout.trim, loop, hsuffix.isInfix.trans ?_, hrun⟩
      exact ⟨[_], [_], rfl⟩

/-- Two tests. -/
def twoTests : List TestCase := [⟨"1", none, some "1"⟩, ⟨"2", some "5", some "1"⟩]

/-- A run of them in which the disk is full when the second is reached. -/
def fullDiskTrace : List (Event Call.Res) :=
  [⟨.exec (.init 0), .ok "/box/0"⟩, ⟨.writeFile ⟨"/box/0", "solution.py"⟩ "print(1)", .ok ()⟩,
    ⟨.now, (0 : ℤ)⟩] ++
  runEvents "/box/0"
    (runCommand 0 python "solution.py" ⟨"1", none, some "1"⟩ (mergeConfig {}) ⟨0, 0⟩)
    (.ok []) (.ok "1\n") (.ok []) (.ok "exitcode:0") ++
  [⟨.exec (.rmMeta ⟨0, 0⟩), .ok []⟩, ⟨.now, (9 : ℤ)⟩,
    ⟨.writeFile ⟨"/box/0", "input.txt"⟩ "5", .error "Error: ENOSPC"⟩,
    ⟨.exec (.rmMeta ⟨0, 9⟩), .ok []⟩, ⟨.exec (.cleanup 0), .ok []⟩]

theorem eval_fullDiskTrace : (executeBatch 0 (some "print(1)") (some "python") twoTests {}).Eval
    fullDiskTrace (.ok (buildErrorResults twoTests
      (JsString.ofString "Internal execution error, " ++ JsString.ofString "Error: ENOSPC")
      .SE)) := by
  refine ⟨.ok "/box/0", _, rfl, .ok (), _, rfl, (0 : ℤ), _, rfl, .ok [], _, rfl,
    .ok "1\n", _, rfl, ?_⟩
  refine ⟨.ok [], _, rfl, .ok "exitcode:0", _, rfl, .ok [], _, rfl, (9 : ℤ), _, rfl, ?_⟩
  exact ⟨.error "Error: ENOSPC", _, rfl, .ok [], _, rfl, .ok [], _, rfl, rfl, rfl⟩

/-- Both tests get `SE`, the first one too, and the box is cleaned up. -/
theorem executeBatch_failures_full_disk :
    (∃ results, AllFailed .SE twoTests results ∧
      (executeBatch 0 (some "print(1)") (some "python") twoTests {}).Eval fullDiskTrace
        (.ok results)) ∧ fullDiskTrace.countP (IsCleanup 0) = 1 := by
  obtain ⟨results, hout, -, -, -, -, hwrite, -, -, hclean, -⟩ :=
    executeBatch_failures eval_fullDiskTrace
  refine ⟨⟨results, hwrite ?_, hout ▸ eval_fullDiskTrace⟩, hclean ⟨_, .head _⟩⟩
  exact ⟨⟨.writeFile ⟨"/box/0", "input.txt"⟩ "5", .error "Error: ENOSPC"⟩, by
    simp [fullDiskTrace, runEvents], _, _, _, rfl⟩

end JudgeIt
