import JudgeIt.Judge.Submission

/-!
# What a recorded `ACC` stands for

A submission recorded as `ACC` should have been prepared (a supported language, an initialised box,
a source that was taken and, where needed, compiled) and should have passed every test. Each failure
on the way is turned into one error result per test, so with at least one test no failure survives
`finalVerdicate`. With no tests the list of error results is empty, and the final verdict keeps its
default: an empty test list is exactly where an `ACC` can stand for nothing.
-/

namespace JudgeIt

open Async Judging

variable {e : SubmissionQueuedEvent} {boxId : ℕ} {tr : List (Event Call.Res)}

/-- The trace records the final verdict `ACC` for some submission. -/
def RecordsAcc (tr : List (Event Call.Res)) : Prop :=
  ∃ submissionId t m r, ⟨.updateSubmission submissionId "ACC" t m, r⟩ ∈ tr

/-- Every test ran with status `OK` and produced the expected tokens: the trace contains, one after
the other, a complete run of each test that says so. -/
def PassesTests (boxId : ℕ) (langConfig : LanguageConfig) (config : ExecutionConfig)
    (boxPath : JsString) (testCases : List TestCase) (tr : List (Event Call.Res)) : Prop :=
  ∃ segments : List (List (Event Call.Res)), segments.flatten <:+: tr ∧
    List.Forall₂ (fun test segment ↦ ∃ result,
      (runTestCase boxId langConfig (sourceFile langConfig) test config boxPath).Eval segment
        (.ok result) ∧
      result.status = .OK ∧ outputTokens test.output = outputTokens result.output)
      testCases segments

/-- The submission deserves its `ACC`: the box was prepared for it, and it passed the tests that
were loaded, under the limits of its problem. -/
def Accepted (e : SubmissionQueuedEvent) (boxId : ℕ) (tr : List (Event Call.Res)) : Prop :=
  ∃ langConfig boxPath testCases problem,
    Prepared boxId e.code e.language tr langConfig boxPath ∧
    ⟨.getTestCases e.problemId, .ok testCases⟩ ∈ tr ∧
    ⟨.findProblem e.problemId, .ok (some problem)⟩ ∈ tr ∧
    PassesTests boxId langConfig
      (mergeConfig (judgeConfig ⟨problem.memoryLimit, problem.timeLimit⟩)) boxPath testCases tr

/-- The problem was found and has no tests, and the box was not prepared. -/
def UnpreparedUntested (e : SubmissionQueuedEvent) (boxId : ℕ) (tr : List (Event Call.Res)) :
    Prop :=
  ⟨.getTestCases e.problemId, .ok []⟩ ∈ tr ∧
  (∃ problem, ⟨.findProblem e.problemId, .ok (some problem)⟩ ∈ tr) ∧
  ∀ langConfig boxPath, ¬Prepared boxId e.code e.language tr langConfig boxPath

/-! ## Seeing the batch in the trace -/

theorem not_loaded {r : Except JsString (List TestCase)} {r' : Except JsString (Option Problem)}
    (hr : (∃ err, r = .error err) ∨ r' = .ok none ∨ ∃ err, r' = .error err)
    {testCases : List TestCase} {problem : Problem}
    (htests : ⟨.getTestCases e.problemId, .ok testCases⟩ ∈
      ([⟨.getTestCases e.problemId, r⟩, ⟨.findProblem e.problemId, r'⟩] : List (Event Call.Res))) :
    ⟨.findProblem e.problemId, .ok (some problem)⟩ ∉
      ([⟨.getTestCases e.problemId, r⟩, ⟨.findProblem e.problemId, r'⟩] :
        List (Event Call.Res)) := by
  intro hproblem
  rcases hr with ⟨_, rfl⟩ | rfl | ⟨_, rfl⟩
  · simp at htests
  · simp at hproblem
  · simp at hproblem

theorem Prepared.congr {code language : Option JsString} {tr tr' : List (Event Call.Res)}
    {langConfig : LanguageConfig} {boxPath : JsString}
    (h : Prepared boxId code language tr langConfig boxPath)
    (htr : ∀ x : Event Call.Res, x.1.Sandbox → x.1 ≠ .now → x ∈ tr → x ∈ tr') :
    Prepared boxId code language tr' langConfig boxPath where
  supported := h.supported
  initialised := by
    obtain ⟨stdout, hpath, hmem⟩ := h.initialised
    exact ⟨stdout, hpath, htr _ trivial (by simp) hmem⟩
  accepted := by
    obtain ⟨text, hcode, hlen, hmem⟩ := h.accepted
    exact ⟨text, hcode, hlen, htr _ trivial (by simp) hmem⟩
  compiled := fun c hc ↦ by
    obtain ⟨stdout, hmem⟩ := h.compiled c hc
    exact ⟨stdout, htr _ trivial (by simp) hmem⟩

variable {run writes : List (Event Call.Res)} {testCases : List TestCase} {problem : Problem}
  {results : List ExecutionResult} {verdicates : List JsString} {rows : List SubmissionResult}
  {out : Except JsString (List JsString)}

/-- A judged and written trace, call by call: what was loaded, the batch, and what was recorded. -/
structure JudgedTrace (e : SubmissionQueuedEvent) (boxId : ℕ) (tr : List (Event Call.Res))
    (testCases : List TestCase) (problem : Problem) (results : List ExecutionResult)
    (verdicates : List JsString) : Prop where
  loaded : ∀ r, ⟨.getTestCases e.problemId, r⟩ ∈ tr ↔ r = .ok testCases
  found : ∀ r, ⟨.findProblem e.problemId, r⟩ ∈ tr ↔ r = .ok (some problem)
  executed : ∃ batch, batch <:+: tr ∧
    (∀ langConfig boxPath, Prepared boxId e.code e.language tr langConfig boxPath ↔
      Prepared boxId e.code e.language batch langConfig boxPath) ∧
    (executeBatch boxId e.code e.language testCases
      (judgeConfig ⟨problem.memoryLimit, problem.timeLimit⟩)).Eval batch (.ok results)
  validated : Validated results testCases verdicates
  recorded : RecordsAcc tr ↔ finalVerdicate verdicates = JsString.ofString "ACC"

/-- The first write is made in any case, and it is the only one of its kind. -/
theorem Written.update_mem_iff {js : List Judgement} (h : Written e verdicates js rows writes out)
    {submissionId : Option ℤ} {v : JsString} {t m : ℚ} :
    (∃ r, ⟨.updateSubmission submissionId v t m, r⟩ ∈ writes) ↔
      Call.updateSubmission submissionId v t m = updateCall e verdicates js := by
  cases h <;> simp

theorem Written.eq_now {js : List Judgement} (h : Written e verdicates js rows writes out) :
    ∀ x ∈ writes, x.1.Sandbox → x.1 = .now := by
  cases h <;> simp [Call.Sandbox]

theorem Judged.judgedTrace (h : Judged e boxId run testCases problem results verdicates rows)
    (hw : Written e verdicates (judgements verdicates results testCases) rows writes out) :
    JudgedTrace e boxId (run ++ writes) testCases problem results verdicates := by
  obtain ⟨batch, clock, rfl, heval, hclock⟩ := h.trace
  have hbatch : ∀ x ∈ batch, x.1.Sandbox := executeBatch_keeps.forall_mem heval
  have hnot : ∀ x : Event Call.Res, ¬x.1.Sandbox → x ∉ batch ∧ x ∉ clock := fun x hx ↦
    ⟨fun hmem ↦ hx (hbatch x hmem), fun hmem ↦ hx (by rw [hclock x hmem]; trivial)⟩
  refine ⟨fun r ↦ ?_, fun r ↦ ?_, ⟨batch, ?_, fun langConfig boxPath ↦ ?_, heval⟩, h.validated, ?_⟩
  · have hr := hnot ⟨.getTestCases e.problemId, r⟩ id
    cases hw <;> simp [hr]
  · have hr := hnot ⟨.findProblem e.problemId, r⟩ id
    cases hw <;> simp [hr]
  · exact ⟨[⟨.getTestCases e.problemId, .ok testCases⟩,
      ⟨.findProblem e.problemId, .ok (some problem)⟩], clock ++ writes, by simp⟩
  · -- what prepares a box is in the batch: outside it the sandbox is only asked for the time
    refine ⟨fun hp ↦ hp.congr fun x hx hne hmem ↦ ?_,
      fun hp ↦ hp.congr fun x _ _ hmem ↦ by simp [hmem]⟩
    rcases List.mem_append.mp hmem with hmem | hmem
    · rcases List.mem_cons.mp hmem with rfl | hmem
      · cases hx
      rcases List.mem_cons.mp hmem with rfl | hmem
      · cases hx
      rcases List.mem_append.mp hmem with hmem | hmem
      · exact hmem
      · exact absurd (hclock x hmem) hne
    · exact absurd (hw.eq_now x hmem hx) hne
  · constructor
    · rintro ⟨submissionId, t, m, r, hmem⟩
      have hr := hnot ⟨.updateSubmission submissionId "ACC" t m, r⟩ id
      have hmem : ⟨.updateSubmission submissionId "ACC" t m, r⟩ ∈ writes := by simpa [hr] using hmem
      have heq := hw.update_mem_iff.mp ⟨r, hmem⟩
      exact (Call.updateSubmission.inj heq).2.1.symm
    · intro hacc
      obtain ⟨r, hmem⟩ := hw.update_mem_iff.mpr rfl
      rw [hacc] at hmem
      exact ⟨_, _, _, r, List.mem_append_right _ hmem⟩

/-! ## Accepted or untested -/

/-- With an error result for each test, the verdict is `ACC` only if there is no test. -/
theorem Validated.eq_nil_of_errors {error : JsString} {status : Status} (hs : status ≠ .OK)
    (h : Validated (buildErrorResults testCases error status) testCases verdicates)
    (hacc : finalVerdicate verdicates = JsString.ofString "ACC") : testCases = [] := by
  have hall := (h.finalVerdicate_iff (length_buildErrorResults ..)).mp hacc
  cases testCases with
  | nil => rfl
  | cons test tests =>
    obtain ⟨⟨hok, -⟩, -⟩ := List.forall₂_cons.mp hall
    exact absurd hok hs

/-- The rounds of a loop whose results are all `OK` with the expected tokens. -/
theorem passesTests_of_eval {langConfig : LanguageConfig} {config : ExecutionConfig}
    {boxPath : JsString} {loop : List (Event Call.Res)} (hloop : loop <:+: tr)
    (heval : (Program.collect (runTest boxId langConfig config boxPath) testCases).Eval loop
      (.ok results))
    (hall : List.Forall₂ (fun result test ↦ result.status = .OK ∧
      outputTokens test.output = outputTokens result.output) results testCases) :
    PassesTests boxId langConfig config boxPath testCases tr := by
  obtain ⟨segments, rfl, hseg, -⟩ := Program.eval_collect_ok_iff.mp heval
  refine ⟨segments, hloop, ?_⟩
  clear hloop heval
  induction hall generalizing segments with
  | nil =>
    rw [List.zip_nil_left, List.forall₂_nil_left_iff] at hseg
    rw [hseg]
    exact .nil
  | @cons result test results testCases hrt _ ih =>
    rw [List.zip_cons_cons, List.forall₂_cons_left_iff] at hseg
    obtain ⟨segment, segments, hrun, hseg, rfl⟩ := hseg
    refine .cons ?_ (ih segments hseg)
    rcases Program.eval_bind_iff.mp hrun with ⟨_, -, hout⟩ |
      ⟨result', tr₁, tr₂, rfl, h₁, rfl, hout⟩
    · cases hout
    · have hres := Except.ok.inj hout
      dsimp only at hres
      subst hres
      exact ⟨result', by rwa [List.append_nil], hrt⟩

/-- In every run of `judgeSubmission`, a recorded `ACC` stands for an accepted submission, unless
the problem has no tests and the box was not prepared; and then it never does. -/
theorem records_acc_sound_iff (h : (judgeSubmission (some e) boxId).Eval tr out) :
    (RecordsAcc tr → Accepted e boxId tr) ↔ ¬UnpreparedUntested e boxId tr := by
  rcases eval_judgeSubmission h with ⟨r, r', err, rfl, hr, -⟩ |
    ⟨run, writes, testCases, problem, results, verdicates, rows, rfl, hjudged, hwritten⟩
  · refine iff_of_true ?_ ?_
    · rintro ⟨_, _, _, _, hmem⟩
      simp at hmem
    · rintro ⟨htests, ⟨problem, hproblem⟩, -⟩
      exact not_loaded hr htests hproblem
  obtain ⟨hloaded, hfound, ⟨batch, hbatch, hprepared, heval⟩, hvalid, hrec⟩ :=
    hjudged.judgedTrace hwritten
  have hlen := length_executeBatch heval
  rw [hrec]
  constructor
  -- Without tests there is no verdict, and the verdict of none is `ACC`.
  · rintro hacc ⟨htests, -, hun⟩
    have hnil : verdicates = [] := by
      have hle := hvalid.length_le.2
      rw [← Except.ok.inj ((hloaded _).mp htests)] at hle
      exact List.length_eq_zero_iff.mp (Nat.le_zero.mp hle)
    obtain ⟨langConfig, boxPath, _, _, hp, -⟩ := hacc (by rw [hnil]; rfl)
    exact hun langConfig boxPath hp
  · intro hun hacc
    have htests := (hloaded (.ok testCases)).mpr rfl
    have hproblem := (hfound (.ok (some problem))).mpr rfl
    obtain ⟨results', hres, ⟨hnot, error, status, hs, rfl⟩ |
      ⟨langConfig, boxPath, hp, loop, outcome, hloop, hrun, houtcome⟩⟩ := eval_executeBatch heval
    -- Not prepared, each test has an error result; so `ACC` means that there was none.
    · cases hres
      obtain rfl := hvalid.eq_nil_of_errors hs hacc
      exact absurd ⟨htests, ⟨problem, hproblem⟩, fun l b hp ↦ hnot l b ((hprepared l b).mp hp)⟩ hun
    · cases hres
      refine ⟨langConfig, boxPath, testCases, problem, (hprepared _ _).mpr hp, htests, hproblem, ?_⟩
      rcases houtcome with rfl | ⟨error, rfl⟩
      · exact passesTests_of_eval (hloop.trans hbatch) hrun
          ((hvalid.finalVerdicate_iff hlen).mp hacc)
      · obtain rfl := hvalid.eq_nil_of_errors (by simp) hacc
        exact ⟨[], List.nil_infix, .nil⟩

/-! ## A problem without tests -/

/-- A submission that does not compile, for a problem without tests. -/
def uncompilable : SubmissionQueuedEvent where
  submissionId := some 1
  userId := some "3"
  problemId := some 7
  language := some "cpp"
  code := some "int main("
  timestamp := some "2025-01-01T00:00:00.000Z"

/-- The problem it is for. -/
def sumProblem : Problem where
  id := 7
  title := "A+B"
  difficulty := "easy"
  memoryLimit := 256
  timeLimit := 2

/-- What judging it looks like. -/
def uncompilableTrace : List (Event Call.Res) :=
  [⟨.getTestCases (some 7), .ok []⟩, ⟨.findProblem (some 7), .ok (some sumProblem)⟩,
    ⟨.exec (.init 0), .ok "/box/0"⟩,
    ⟨.writeFile ⟨"/box/0", "solution.cpp"⟩ "int main(", .ok ()⟩,
    ⟨.exec (.compile (compileCommand 0 "solution.cpp" ⟨10, fun sourceFile ↦ ["/usr/bin/g++",
      "-std=c++17", "-O2", "-Wall", "-Wextra", sourceFile, "-o", "solution", "-lm"]⟩)),
      .error "Error: Command failed"⟩,
    ⟨.readFile ⟨"/box/0", "compile_error.txt"⟩, .ok "expected ')'"⟩,
    ⟨.exec (.cleanup 0), .ok []⟩,
    ⟨.updateSubmission (some 1) "ACC" 0 0, .ok ()⟩, ⟨.createMany [], .ok ()⟩,
    ⟨.getTime (some "2025-01-01T00:00:00.000Z"), some 0⟩, ⟨.now, 1000⟩,
    ⟨.observe (some ((1000 - 0 : ℤ) / 1000)), .ok ()⟩]

theorem eval_uncompilable :
    (judgeSubmission (some uncompilable) 0).Eval uncompilableTrace (.ok []) := by
  refine ⟨.ok [], _, rfl, .ok (some sumProblem), _, rfl, .ok "/box/0", _, rfl, .ok (), _, rfl, ?_⟩
  refine ⟨.error "Error: Command failed", _, rfl, .ok "expected ')'", _, rfl, .ok [], _, rfl, ?_⟩
  exact ⟨.ok (), _, rfl, .ok (), _, rfl, some 0, _, rfl, (1000 : ℤ), _, rfl, .ok (), _, rfl,
    rfl, rfl⟩

theorem not_accepted_uncompilable : ¬Accepted uncompilable 0 uncompilableTrace := by
  rintro ⟨langConfig, boxPath, _, _, hp, -⟩
  obtain rfl : cpp = langConfig := Option.some.inj hp.supported
  obtain ⟨stdout, hmem⟩ := hp.compiled _ rfl
  simp [uncompilableTrace] at hmem

/-- Another submission for that problem. -/
def sumEvent : SubmissionQueuedEvent :=
  { uncompilable with
    language := some "python"
    code := some "print(4)" }

/-- What the sandbox does with one test of it, by the metadata of the test. -/
def sumTestRun (test : TestCase) (time : ℤ) (info : JsString) : List (Event Call.Res) :=
  [⟨.now, time⟩, ⟨.exec (.run (runCommand 0 python "solution.py" test
      (mergeConfig (judgeConfig ⟨256, 2⟩)) ⟨0, time⟩)), .ok ""⟩,
    ⟨.exec (.cat ⟨"/box/0", "output.txt"⟩), .ok "4\n"⟩,
    ⟨.exec (.cat ⟨"/box/0", "error.txt"⟩), .ok ""⟩, ⟨.exec (.catMeta ⟨0, time⟩), .ok info⟩,
    ⟨.exec (.rmMeta ⟨0, time⟩), .ok ""⟩]

/-- What is reported of the test. -/
def sumResult (test : TestCase) (info : JsString) : ExecutionResult :=
  { buildResultFromMeta (parseMetaFile info) "4\n" "" with testCaseName := some test.name }

/-- What it does around the tests. -/
def sumBatch (tests : List (Event Call.Res)) : List (Event Call.Res) :=
  [⟨.exec (.init 0), .ok "/box/0"⟩, ⟨.writeFile ⟨"/box/0", "solution.py"⟩ "print(4)", .ok ()⟩] ++
    (tests ++ [⟨.exec (.cleanup 0), .ok ""⟩])

theorem eval_sumTestRun (name : JsString) (output : Option JsString) (time : ℤ) (info : JsString) :
    (runTest 0 python (mergeConfig (judgeConfig ⟨256, 2⟩)) "/box/0" ⟨name, none, output⟩).Eval
      (sumTestRun ⟨name, none, output⟩ time info) (.ok (sumResult ⟨name, none, output⟩ info)) :=
  ⟨_, _, rfl, _, _, rfl, _, _, rfl, _, _, rfl, _, _, rfl, _, _, rfl, rfl, rfl⟩

theorem eval_sumBatch {tests : List TestCase} {loop : List (Event Call.Res)}
    (h : (Program.collect (runTest 0 python (mergeConfig (judgeConfig ⟨256, 2⟩)) "/box/0")
      tests).Eval loop (.ok results)) :
    (executeBatch 0 sumEvent.code sumEvent.language tests (judgeConfig ⟨256, 2⟩)).Eval
      (sumBatch loop) (.ok results) := by
  have hbox : ∀ tr e, ¬(destroyBox 0).Eval tr (.error e) := fun _ _ he ↦ by
    cases (eval_destroyBox_iff.mp he).1
  have hbatch : (runBatch 0 (some "print(4)") python tests (mergeConfig (judgeConfig ⟨256, 2⟩))
      "/box/0").Eval (⟨.writeFile ⟨"/box/0", "solution.py"⟩ "print(4)", .ok ()⟩ :: loop)
        (.ok results) := ⟨.ok (), loop, rfl, h⟩
  refine ⟨.ok "/box/0", _, rfl, ?_⟩
  refine (Program.eval_tryFinally_iff hbox).mpr ⟨_ :: loop, [_], rfl, ?_,
    eval_destroyBox_iff.mpr ⟨rfl, _, rfl⟩⟩
  exact Program.eval_tryCatch_iff.mpr (Or.inl ⟨_, hbatch, rfl⟩)

/-- Judging it up to the first write, on a test that it passes. -/
def passedRun : List (Event Call.Res) :=
  ⟨.getTestCases (some 7), .ok [⟨"1", none, some "4"⟩]⟩ ::
    ⟨.findProblem (some 7), .ok (some sumProblem)⟩ ::
    (sumBatch (sumTestRun ⟨"1", none, some "4"⟩ 1000 "exitcode:0") ++ [⟨.now, (2000 : ℤ)⟩])

/-- Its writes. -/
def passedWrites : List (Event Call.Res) :=
  [⟨.updateSubmission (some 1) "ACC" 0 0, .ok ()⟩,
    ⟨.createMany [⟨some 1, "1", some 0, some 0, "ACC", 2000⟩], .ok ()⟩,
    ⟨.getTime (some "2025-01-01T00:00:00.000Z"), some (0 : ℤ)⟩, ⟨.now, (2000 : ℤ)⟩,
    ⟨.observe (some ((2000 - 0 : ℤ) / 1000)), .ok ()⟩]

theorem eval_passed :
    (judgeSubmission (some sumEvent) 0).Eval (passedRun ++ passedWrites) (.ok ["ACC"]) := by
  let test : TestCase := ⟨"1", none, some "4"⟩
  have hloop : (Program.collect (runTest 0 python (mergeConfig (judgeConfig ⟨256, 2⟩)) "/box/0")
      [test]).Eval (sumTestRun test 1000 "exitcode:0") (.ok [sumResult test "exitcode:0"]) :=
    Program.eval_collect_ok_iff.mpr ⟨[_], rfl, .cons (eval_sumTestRun ..) .nil, rfl⟩
  have hrun : (runSubmission sumEvent 0).Eval passedRun (.ok (["ACC"],
      judgements ["ACC"] [sumResult test "exitcode:0"] [test],
      [⟨some 1, "1", some 0, some 0, "ACC", 2000⟩])) :=
    eval_runSubmission_of (eval_sumBatch hloop) (by decide +kernel)
      ⟨(2000 : ℤ), _, rfl, rfl, by decide +kernel⟩
  have ht : 0 = exectionTime (judgements ["ACC"] [sumResult test "exitcode:0"] [test]) := by
    decide +kernel
  have hm : 0 = memoryUsed (judgements ["ACC"] [sumResult test "exitcode:0"] [test]) := by
    decide +kernel
  refine Program.eval_bind_iff.mpr (Or.inr ⟨_, _, _, rfl, hrun, ?_⟩)
  exact ⟨.ok (), _, congrArg (· :: _) (updateEvent_congr ht hm _), .ok (), _, rfl, some (0 : ℤ), _,
    rfl, (2000 : ℤ), _, rfl, .ok (), _, rfl, rfl, rfl⟩

/-- On that run the iff applies: nothing was prepared, and there was nothing to pass. On the other
one there is a test, and it is passed. -/
theorem records_acc_sound_iff_uncompilable :
    ((RecordsAcc uncompilableTrace → Accepted uncompilable 0 uncompilableTrace) ↔
      ¬UnpreparedUntested uncompilable 0 uncompilableTrace) ∧
    Accepted sumEvent 0 (passedRun ++ passedWrites) := by
  refine ⟨records_acc_sound_iff eval_uncompilable, (records_acc_sound_iff eval_passed).mpr ?_ ?_⟩
  · rintro ⟨htests, -⟩
    simp [passedRun, passedWrites, sumBatch, sumTestRun] at htests
  · exact ⟨some 1, 0, 0, .ok (), by simp [passedWrites]⟩

/-- A submission that does not compile is recorded as `ACC` when its problem has no tests. -/
theorem uncompilable_recorded_acc :
    (judgeSubmission (some uncompilable) 0).Eval uncompilableTrace (.ok []) ∧
      RecordsAcc uncompilableTrace ∧ ¬Accepted uncompilable 0 uncompilableTrace :=
  ⟨eval_uncompilable, ⟨some 1, 0, 0, .ok (), by simp [uncompilableTrace]⟩,
    not_accepted_uncompilable⟩

end JudgeIt
