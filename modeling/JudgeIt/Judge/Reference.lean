import JudgeIt.Judge.Accepted

/-!
# The verdicts in one pass

`validateResults` stops at the first result that is not `OK`, the final verdict is the first one
other than `ACC`, and the rows are indexed by the verdicts. The reference is one pass over results
and tests, `verdicts`, without any stopping rule. The loops agree with it because a result that ends
validation has a verdict other than `ACC`: nothing behind it can be the first such verdict. A run of
`judgeSubmission` whose tests and problem load sends that verdict, and the rows behind it.
-/

namespace JudgeIt

open Async Judging

/-- The verdict on every test, by its own result. -/
def verdicts (results : List ExecutionResult) (tests : List TestCase) : List JsString :=
  List.zipWith verdictOf results tests

/-- The index of the first result that is not `OK`; the number of results if there is none. -/
def firstFailure (results : List ExecutionResult) : ℕ :=
  results.findIdx fun result ↦ result.status ≠ .OK

/-- The verdicts up to and including the first test that did not run to its end. -/
def returnedVerdicts (results : List ExecutionResult) (tests : List TestCase) : List JsString :=
  (verdicts results tests).take (firstFailure results + 1)

/-- The first verdict other than `ACC` among all, or `ACC` if there is none. -/
def referenceVerdict (results : List ExecutionResult) (tests : List TestCase) : JsString :=
  ((verdicts results tests).find? (· ≠ JsString.ofString "ACC")).getD "ACC"

/-- One row per returned verdict: the submission, the name of the test and its verdict. -/
def referenceRows (submissionId : Option ℤ) (results : List ExecutionResult)
    (tests : List TestCase) : List (Option ℤ × JsString × JsString) :=
  ((tests.map TestCase.name).zip (returnedVerdicts results tests)).map (submissionId, ·)

/-- What the reference says of a row. -/
def SubmissionResult.summary (row : SubmissionResult) : Option ℤ × JsString × JsString :=
  (row.submissionId, row.testcaseName, row.verdict)

/-- The trace records the reference for the submission: its verdict is sent, and once it is accepted
the rows are sent; and nothing else is sent of either kind. -/
structure RecordsReference (e : SubmissionQueuedEvent) (tr : List (Event Call.Res))
    (results : List ExecutionResult) (tests : List TestCase) : Prop where
  verdict : ∃ t m r,
    ⟨.updateSubmission e.submissionId (referenceVerdict results tests) t m, r⟩ ∈ tr ∧
    (r = .ok () → ∃ rows r', ⟨.createMany rows, r'⟩ ∈ tr ∧
      rows.map SubmissionResult.summary = referenceRows e.submissionId results tests)
  verdict_eq : ∀ submissionId v t m r, ⟨.updateSubmission submissionId v t m, r⟩ ∈ tr →
    submissionId = e.submissionId ∧ v = referenceVerdict results tests
  rows_eq : ∀ rows r, ⟨.createMany rows, r⟩ ∈ tr →
    rows.map SubmissionResult.summary = referenceRows e.submissionId results tests

variable {results : List ExecutionResult} {tests : List TestCase} {verdicates : List JsString}
  {rows : List SubmissionResult} {e : SubmissionQueuedEvent} {boxId : ℕ}
  {tr : List (Event Call.Res)} {out : Except JsString (List JsString)}

/-! ## The loops -/

theorem validateResults_eq (hlen : results.length = tests.length) :
    validateResults results tests = .ok (returnedVerdicts results tests) := by
  induction results generalizing tests with
  | nil => rfl
  | cons result results ih =>
    cases tests with
    | nil => cases hlen
    | cons test tests =>
      rw [validateResults, ih (Nat.succ_injective hlen)]
      by_cases hs : result.status = .OK
      · rw [if_neg (not_not.mpr hs)]
        simp [returnedVerdicts, verdicts, firstFailure, List.findIdx_cons, hs, Except.map]
      · rw [if_pos hs]
        simp [returnedVerdicts, verdicts, firstFailure, List.findIdx_cons, hs]

theorem finalVerdicate_returnedVerdicts (hlen : results.length = tests.length) :
    finalVerdicate (returnedVerdicts results tests) = finalVerdicate (verdicts results tests) := by
  induction results generalizing tests with
  | nil => rfl
  | cons result results ih =>
    cases tests with
    | nil => cases hlen
    | cons test tests =>
      have ih := ih (Nat.succ_injective hlen)
      simp only [finalVerdicate] at ih ⊢
      by_cases hs : result.status = .OK
      · have htake : returnedVerdicts (result :: results) (test :: tests)
            = verdictOf result test :: returnedVerdicts results tests := by
          simp [returnedVerdicts, verdicts, firstFailure, List.findIdx_cons, hs]
        rw [htake, verdicts, List.zipWith_cons_cons, List.find?_cons, List.find?_cons]
        split
        · rfl
        · exact ih
      · have hne : verdictOf result test ≠ JsString.ofString "ACC" := fun hv ↦
          hs (verdictOf_eq_acc_iff.mp hv).1
        simp [returnedVerdicts, verdicts, firstFailure, List.findIdx_cons, hs, hne]

theorem map_judgements (hlen : results.length = tests.length) :
    (judgements verdicates results tests).map (fun j ↦ (j.2.2.name, j.1))
      = (tests.map TestCase.name).zip verdicates := by
  induction results generalizing tests verdicates with
  | nil =>
    rw [List.length_eq_zero_iff.mp hlen.symm]
    simp [judgements]
  | cons result results ih =>
    cases tests with
    | nil => cases hlen
    | cons test tests =>
      cases verdicates with
      | nil => rfl
      | cons v vs =>
        have ih : (judgements vs results tests).map (fun j ↦ (j.2.2.name, j.1))
            = (tests.map TestCase.name).zip vs := ih (Nat.succ_injective hlen)
        simp only [judgements, List.zip_cons_cons, List.map_cons] at ih ⊢
        rw [ih]

theorem map_submissionResults {submissionId : Option ℤ} (hlen : results.length = tests.length)
    (h : rows.map (fun row ↦ { row with createdAt := 0 }) =
      (judgements verdicates results tests).map fun j ↦ resultRow submissionId j 0) :
    rows.map SubmissionResult.summary
      = ((tests.map TestCase.name).zip verdicates).map (submissionId, ·) := by
  have hmap := congrArg (List.map SubmissionResult.summary) h
  rw [List.map_map, List.map_map] at hmap
  rw [← map_judgements hlen, List.map_map]
  exact hmap

/-! ## Runs of `judgeSubmission` -/

/-- In the trace, the tests `tests` were loaded and the batch reported `results` for them. -/
def Reported (e : SubmissionQueuedEvent) (boxId : ℕ) (tr : List (Event Call.Res))
    (tests : List TestCase) (results : List ExecutionResult) : Prop :=
  ∃ problem batch, ⟨.getTestCases e.problemId, .ok tests⟩ ::
      ⟨.findProblem e.problemId, .ok (some problem)⟩ :: batch <+: tr ∧
    (executeBatch boxId e.code e.language tests
      (judgeConfig ⟨problem.memoryLimit, problem.timeLimit⟩)).Eval batch (.ok results)

/-- A trace reports the results of one batch. -/
theorem Reported.unique {tests' : List TestCase} {results' : List ExecutionResult}
    (h : Reported e boxId tr tests results) (h' : Reported e boxId tr tests' results') :
    tests' = tests ∧ results' = results := by
  obtain ⟨problem, batch, ⟨rest, rfl⟩, heval⟩ := h
  obtain ⟨problem', batch', hprefix', heval'⟩ := h'
  obtain ⟨htests, htail⟩ := List.cons_prefix_cons.mp hprefix'
  obtain ⟨hproblem, hbatch⟩ := List.cons_prefix_cons.mp htail
  obtain rfl : tests' = tests := by simpa using htests
  obtain rfl : problem' = problem := by simpa using hproblem
  have hresults := (heval.eq_of_prefix heval' (List.prefix_append batch rest) hbatch).2
  exact ⟨rfl, (Except.ok.inj hresults).symm⟩

theorem Judged.reported {run : List (Event Call.Res)} {problem : Problem}
    (h : Judged e boxId run tests problem results verdicates rows) (hp : run <+: tr) :
    Reported e boxId tr tests results := by
  obtain ⟨batch, clock, rfl, heval, -⟩ := h.trace
  refine ⟨problem, batch, List.IsPrefix.trans ?_ hp, heval⟩
  exact ⟨clock, by simp⟩

theorem Written.eq_of_writes {js : List Judgement} {writes : List (Event Call.Res)}
    (h : Written e verdicates js rows writes out) (x : Event Call.Res) (hx : x ∈ writes)
    (hw : x.1.Writes) : x.1 = .createMany rows ∨ x.1 = updateCall e verdicates js := by
  cases h <;> simp only [List.mem_cons, List.not_mem_nil, or_false] at hx
  · rw [hx]
    exact Or.inr rfl
  · rcases hx with rfl | rfl
    · exact Or.inr rfl
    · exact Or.inl rfl
  · rcases hx with rfl | rfl | rfl | rfl | rfl
    · exact Or.inr rfl
    · exact Or.inl rfl
    · exact absurd hw id
    · exact absurd hw id
    · exact absurd hw id

/-- **The writes of a run.** Either nothing is written, or a batch reported results for the tests,
and whatever is written is made of them. -/
theorem writes_of_eval (h : (judgeSubmission (some e) boxId).Eval tr out) :
    (∀ x ∈ tr, ¬x.1.Writes) ∨
    ∃ tests results rows, Reported e boxId tr tests results ∧ results.length = tests.length ∧
      rows.map (fun row ↦ { row with createdAt := 0 }) =
        (judgements (returnedVerdicts results tests) results tests).map
          (fun j ↦ resultRow e.submissionId j 0) ∧
      ∀ x ∈ tr, x.1.Writes → x.1 = .createMany rows ∨ x.1 = updateCall e
        (returnedVerdicts results tests)
        (judgements (returnedVerdicts results tests) results tests) := by
  rcases eval_judgeSubmission h with ⟨r, r', err, rfl, -⟩ |
    ⟨run, writes, tests, problem, results, verdicates, rows, rfl, hjudged, hwritten⟩
  · exact Or.inl (by simp [Call.Writes])
  · refine Or.inr ⟨tests, results, rows, hjudged.reported (List.prefix_append run writes),
      hjudged.length_eq, ?_⟩
    have hv : verdicates = returnedVerdicts results tests := by
      have heq := hjudged.validated.eq_ok
      rw [validateResults_eq hjudged.length_eq] at heq
      exact (Except.ok.inj heq).symm
    subst hv
    refine ⟨hjudged.rows_eq, fun x hx hwrites ↦ ?_⟩
    rcases List.mem_append.mp hx with hx | hx
    · exact absurd hwrites (hjudged.not_writes x hx)
    · exact hwritten.eq_of_writes x hx hwrites

theorem Written.sent {js : List Judgement} {writes : List (Event Call.Res)}
    (h : Written e verdicates js rows writes out) : ∃ r, ⟨updateCall e verdicates js, r⟩ ∈ writes ∧
      (r = .ok () → ∃ r', ⟨.createMany rows, r'⟩ ∈ writes) := by
  cases h with
  | updateFailed err => exact ⟨.error err, List.mem_cons_self, by simp⟩
  | insertFailed err => exact ⟨.ok (), List.mem_cons_self, fun _ ↦ ⟨.error err, by simp⟩⟩
  | both startTime finishTime seconds r =>
    exact ⟨.ok (), List.mem_cons_self, fun _ ↦ ⟨.ok (), by simp⟩⟩

/-- Whatever was judged and written is the reference. -/
theorem Judged.recordsReference {run writes : List (Event Call.Res)} {problem : Problem}
    (h : Judged e boxId run tests problem results verdicates rows)
    (hw : Written e verdicates (judgements verdicates results tests) rows writes out) :
    RecordsReference e (run ++ writes) results tests := by
  have hlen := h.length_eq
  have hv := h.validated.eq_ok
  rw [validateResults_eq hlen] at hv
  obtain rfl := Except.ok.inj hv
  have hverdict :
      finalVerdicate (returnedVerdicts results tests) = referenceVerdict results tests :=
    finalVerdicate_returnedVerdicts hlen
  have hrows : rows.map SubmissionResult.summary = referenceRows e.submissionId results tests :=
    map_submissionResults hlen h.rows_eq
  have hsent : ∀ x ∈ run ++ writes, x.1.Writes → x.1 = .createMany rows ∨
      x.1 = updateCall e (returnedVerdicts results tests)
        (judgements (returnedVerdicts results tests) results tests) := by
    intro x hx hwrites
    rcases List.mem_append.mp hx with hx | hx
    · exact absurd hwrites (h.not_writes x hx)
    · exact hw.eq_of_writes x hx hwrites
  refine ⟨?_, fun submissionId v t m r hmem ↦ ?_, fun rows' r hmem ↦ ?_⟩
  · obtain ⟨r, hupdate, hinsert⟩ := hw.sent
    rw [← hverdict]
    refine ⟨_, _, r, List.mem_append_right run hupdate, fun hr ↦ ?_⟩
    obtain ⟨r', hmem⟩ := hinsert hr
    exact ⟨rows, r', List.mem_append_right run hmem, hrows⟩
  · rcases hsent _ hmem trivial with heq | heq
    · cases heq
    · obtain ⟨rfl, rfl, -⟩ := Call.updateSubmission.inj heq
      exact ⟨rfl, hverdict⟩
  · rcases hsent _ hmem trivial with heq | heq
    · rw [Call.createMany.inj heq]
      exact hrows
    · cases heq

/-- **The verdicts are those of one pass.** On results and tests of equal length, validation returns
the verdicts up to the first result that is not `OK`, the final verdict is the first one other than
`ACC` among all, and the rows are built one per returned verdict. Every run of `judgeSubmission` in
which the tests and the problem load has its batch report one result per test and records just that
for its submission; in any other run nothing is written. -/
theorem judge_eq_reference :
    (∀ results tests, results.length = tests.length →
      validateResults results tests = .ok (returnedVerdicts results tests) ∧
      finalVerdicate (returnedVerdicts results tests) = referenceVerdict results tests ∧
      ∀ submissionId tr out, (submissionResults submissionId
          (judgements (returnedVerdicts results tests) results tests)).Eval tr out →
        ∃ rows, out = .ok rows ∧
          rows.map SubmissionResult.summary = referenceRows submissionId results tests) ∧
    ∀ e boxId tr out, (judgeSubmission (some e) boxId).Eval tr out →
      (∀ tests problem, ⟨.getTestCases e.problemId, .ok tests⟩ ∈ tr →
        ⟨.findProblem e.problemId, .ok (some problem)⟩ ∈ tr →
        ∃ results, Reported e boxId tr tests results ∧ results.length = tests.length ∧
          RecordsReference e tr results tests) ∧
      ((∃ tests problem, ⟨.getTestCases e.problemId, .ok tests⟩ ∈ tr ∧
        ⟨.findProblem e.problemId, .ok (some problem)⟩ ∈ tr) ∨ ∀ x ∈ tr, ¬x.1.Writes) := by
  refine ⟨fun results tests hlen ↦ ?_, fun e boxId tr out h ↦ ?_⟩
  · refine ⟨validateResults_eq hlen, finalVerdicate_returnedVerdicts hlen, ?_⟩
    intro submissionId tr out h
    obtain ⟨-, rows, rfl, hrows⟩ := eval_submissionResults h
    exact ⟨rows, rfl, map_submissionResults hlen hrows⟩
  rcases eval_judgeSubmission h with ⟨r, r', err, rfl, hr, -⟩ |
    ⟨run, writes, tests, problem, results, verdicates, rows, rfl, hjudged, hwritten⟩
  · exact ⟨fun tests problem htests hproblem ↦ absurd hproblem (not_loaded hr htests),
      Or.inr (by simp [Call.Writes])⟩
  obtain ⟨hloaded, hfound, -⟩ := hjudged.judgedTrace hwritten
  refine ⟨fun tests' problem' htests _ ↦ ?_,
    Or.inl ⟨tests, problem, (hloaded _).mpr rfl, (hfound _).mpr rfl⟩⟩
  obtain rfl := Except.ok.inj ((hloaded _).mp htests)
  exact ⟨results, hjudged.reported (List.prefix_append run writes), hjudged.length_eq,
    hjudged.recordsReference hwritten⟩

/-! ## A wrong answer before a timeout -/

/-- Three tests. -/
def sumTests : List TestCase :=
  [⟨"1", none, some "3"⟩, ⟨"2", none, some "4"⟩, ⟨"3", none, some "4"⟩]

/-- What is reported of them: a wrong answer, a timeout, and a right answer behind it. -/
def sumResults : List ExecutionResult :=
  [sumResult ⟨"1", none, some "3"⟩ "exitcode:0", sumResult ⟨"2", none, some "4"⟩ "status:TO",
    sumResult ⟨"3", none, some "4"⟩ "exitcode:0"]

/-- What the sandbox does with them. -/
def sumLoop : List (Event Call.Res) :=
  [sumTestRun ⟨"1", none, some "3"⟩ 1000 "exitcode:0",
    sumTestRun ⟨"2", none, some "4"⟩ 1001 "status:TO",
    sumTestRun ⟨"3", none, some "4"⟩ 1002 "exitcode:0"].flatten

/-- Judging the submission on them up to the first write. -/
def wrongRun : List (Event Call.Res) :=
  ⟨.getTestCases (some 7), .ok sumTests⟩ :: ⟨.findProblem (some 7), .ok (some sumProblem)⟩ ::
    (sumBatch sumLoop ++ [⟨.now, (2000 : ℤ)⟩, ⟨.now, (2001 : ℤ)⟩])

/-- Its writes. -/
def wrongWrites : List (Event Call.Res) :=
  [⟨.updateSubmission (some 1) "WA" 0 0, .ok ()⟩,
    ⟨.createMany [⟨some 1, "1", some 0, some 0, "WA", 2000⟩,
      ⟨some 1, "2", some 0, some 0, "TLE", 2001⟩], .ok ()⟩,
    ⟨.getTime (some "2025-01-01T00:00:00.000Z"), some (0 : ℤ)⟩, ⟨.now, (2001 : ℤ)⟩,
    ⟨.observe (some ((2001 - 0 : ℤ) / 1000)), .ok ()⟩]

theorem eval_wrongBatch : (executeBatch 0 sumEvent.code sumEvent.language sumTests
    (judgeConfig ⟨256, 2⟩)).Eval (sumBatch sumLoop) (.ok sumResults) :=
  eval_sumBatch (Program.eval_collect_ok_iff.mpr ⟨_, rfl,
    .cons (eval_sumTestRun ..) (.cons (eval_sumTestRun ..) (.cons (eval_sumTestRun ..) .nil)), rfl⟩)

theorem eval_wrong :
    (judgeSubmission (some sumEvent) 0).Eval (wrongRun ++ wrongWrites) (.ok ["WA", "TLE"]) := by
  have hrun : (runSubmission sumEvent 0).Eval wrongRun (.ok (["WA", "TLE"],
      judgements ["WA", "TLE"] sumResults sumTests, [⟨some 1, "1", some 0, some 0, "WA", 2000⟩,
        ⟨some 1, "2", some 0, some 0, "TLE", 2001⟩])) :=
    eval_runSubmission_of eval_wrongBatch (by decide +kernel)
      ⟨(2000 : ℤ), _, rfl, (2001 : ℤ), _, rfl, rfl, by decide +kernel⟩
  have ht : 0 = exectionTime (judgements ["WA", "TLE"] sumResults sumTests) := by decide +kernel
  have hm : 0 = memoryUsed (judgements ["WA", "TLE"] sumResults sumTests) := by decide +kernel
  refine Program.eval_bind_iff.mpr (Or.inr ⟨_, _, _, rfl, hrun, ?_⟩)
  exact ⟨.ok (), _, congrArg (· :: _) (updateEvent_congr ht hm _), .ok (), _, rfl, some (0 : ℤ), _,
    rfl, (2001 : ℤ), _, rfl, .ok (), _, rfl, rfl, rfl⟩

/-- The run on these tests records `WA` and the rows of the first two tests. -/
theorem judge_eq_reference_wrong_answer :
    (judgeSubmission (some sumEvent) 0).Eval (wrongRun ++ wrongWrites) (.ok ["WA", "TLE"]) ∧
      RecordsReference sumEvent (wrongRun ++ wrongWrites) sumResults sumTests ∧
      referenceVerdict sumResults sumTests = JsString.ofString "WA" ∧
      referenceRows (some 1) sumResults sumTests =
        [(some 1, JsString.ofString "1", JsString.ofString "WA"),
          (some 1, JsString.ofString "2", JsString.ofString "TLE")] := by
  obtain ⟨results, hreported, -, hrecords⟩ := (judge_eq_reference.2 _ _ _ _ eval_wrong).1 sumTests
    sumProblem List.mem_cons_self (List.mem_cons_of_mem _ List.mem_cons_self)
  have hreported' : Reported sumEvent 0 (wrongRun ++ wrongWrites) sumTests sumResults :=
    ⟨sumProblem, sumBatch sumLoop,
      ⟨[⟨.now, (2000 : ℤ)⟩, ⟨.now, (2001 : ℤ)⟩] ++ wrongWrites, by simp [wrongRun]; rfl⟩,
      eval_wrongBatch⟩
  obtain ⟨-, rfl⟩ := hreported'.unique hreported
  exact ⟨eval_wrong, hrecords, by decide +kernel, by decide +kernel⟩

end JudgeIt
