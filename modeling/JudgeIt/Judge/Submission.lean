import JudgeIt.Async.Monitor
import JudgeIt.Execution.Batch
import JudgeIt.Judge.Verdict

/-!
# Judging a submission

`JudgeService.judgeSubmission` loads the tests and the limits of the problem, has the batch
executed, and then writes twice: the verdict of the submission, and one result row per verdict. The
two writes are separate calls. `eval_judgeSubmission` cuts every trace there: a part without writes,
then nothing, the rejected first write, both writes with the second rejected, or both and the
latency.
-/

namespace JudgeIt

open Async Judging

/-! ## The program -/

/-- `testCaseService.getTestCases(problemId)`. -/
def getTestCases (problemId : Option ℤ) : Judging (List TestCase) :=
  (Program.request (Call.getTestCases problemId)).bind Program.ofExcept

/-- `getProblemDetails(problemId)`. -/
def getProblemDetails (problemId : Option ℤ) : Judging ProblemDetails :=
  (Program.request (Call.findProblem problemId)).bind fun
    | .error e => .throw e
    | .ok none =>
      .throw (.ofString "NotFoundException: Problem with id " ++
        (problemId.map JsString.ofInt).getD "undefined" ++ .ofString " not found")
    | .ok (some problem) => pure ⟨problem.memoryLimit, problem.timeLimit⟩

/-- The limits a submission is run with. -/
def judgeConfig (problemDetails : ProblemDetails) : PartialConfig where
  timeLimit := some problemDetails.TimeLimit
  memoryLimit := some (problemDetails.MemoryLimit * 1000)
  stackLimit := some (problemDetails.MemoryLimit * 1000)
  processes := some 1

/-- A verdict with the result and the test it belongs to, as the loop over the verdicts reads them
at one index. There are never more verdicts than results or tests. -/
abbrev Judgement := JsString × ExecutionResult × TestCase

/-- The rounds of the loop over the verdicts. -/
def judgements (verdicates : List JsString) (results : List ExecutionResult)
    (testCases : List TestCase) : List Judgement :=
  verdicates.zip (results.zip testCases)

/-- `execution_time_ms` of one round. The product is taken exactly; the code rounds a double. -/
def executionTimeMs (j : Judgement) : ℚ := round (j.2.1.time.getD 0 * 1000)

/-- `memory_mb` of one round. -/
def memoryMb (j : Judgement) : ℚ := toFixed2 ((j.2.1.memory.getD 0 : ℤ) / 1024)

/-- `exectionTime` after the loop. -/
def exectionTime (js : List Judgement) : ℚ := js.foldl (fun t j ↦ max t (executionTimeMs j)) 0

/-- `memoryUsed` after the loop. -/
def memoryUsed (js : List Judgement) : ℚ := js.foldl (fun m j ↦ max m (memoryMb j)) 0

/-- The row pushed in one round. -/
def resultRow (submissionId : Option ℤ) (j : Judgement) (createdAt : ℤ) : SubmissionResult where
  submissionId := submissionId
  testcaseName := j.2.2.name
  executionTime := j.2.1.time
  memoryUsed := j.2.1.memory
  verdict := j.1
  createdAt := createdAt

/-- `submissionResults` after the loop; each round reads the clock. -/
def submissionResults (submissionId : Option ℤ) (js : List Judgement) :
    Judging (List SubmissionResult) :=
  Program.collect (fun j ↦ do
    let createdAt ← now
    pure (resultRow submissionId j createdAt)) js

/-- `submissionsService.updateSubmission(..)`. -/
def updateSubmission (submissionId : Option ℤ) (verdict : JsString)
    (executionTime memoryUsed : ℚ) : Judging Unit :=
  (Program.request (Call.updateSubmission submissionId verdict executionTime memoryUsed)).bind
    Program.ofExcept

/-- `submissionsService.addSubmissionResults(submissionResults)`. -/
def addSubmissionResults (data : List SubmissionResult) : Judging Unit :=
  (Program.request (Call.createMany data)).bind Program.ofExcept

/-- What follows the last write: the latency goes to the metric, which rejects `NaN`. -/
def observeLatency (timestamp : Option JsString) : Judging Unit := do
  let startTime ← Program.request (Call.getTime timestamp)
  let finishTime ← now
  (Program.request (Call.observe (startTime.map fun t ↦ (finishTime - t : ℤ) / 1000))).bind
    Program.ofExcept

/-- `judgeSubmission` up to its first write: the verdicts, with everything the writes need. -/
def runSubmission (e : SubmissionQueuedEvent) (boxId : ℕ) :
    Judging (List JsString × List Judgement × List SubmissionResult) := do
  let (testCases, problemDetails) ←
    Program.both (getTestCases e.problemId) (getProblemDetails e.problemId)
  let results ← executeBatch boxId e.code e.language testCases (judgeConfig problemDetails)
  let verdicates ← Program.ofExcept (validateResults results testCases)
  let js := judgements verdicates results testCases
  let rows ← submissionResults e.submissionId js
  pure (verdicates, js, rows)

/-- `judgeSubmission(submissionDetails, boxId)`; `none` is the JSON value `null`. -/
def judgeSubmission (submissionDetails : Option SubmissionQueuedEvent) (boxId : ℕ) :
    Judging (List JsString) :=
  match submissionDetails with
  | none =>
    .throw (.ofString "TypeError: Cannot destructure property 'submissionId' of " ++
      .ofString "'submissionDetails' as it is null.")
  | some e => do
    let (verdicates, js, rows) ← runSubmission e boxId
    updateSubmission e.submissionId (finalVerdicate verdicates) (exectionTime js) (memoryUsed js)
    addSubmissionResults rows
    observeLatency e.timestamp
    pure verdicates

/-! ## Up to the first write -/

variable {e : SubmissionQueuedEvent} {boxId : ℕ} {tr : List (Event Call.Res)}

/-- What a run up to the first write amounts to: the tests and the problem were loaded, the batch
was executed, its results were validated, and the rows were built, with only the clock read
meanwhile. -/
structure Judged (e : SubmissionQueuedEvent) (boxId : ℕ) (tr : List (Event Call.Res))
    (testCases : List TestCase) (problem : Problem) (results : List ExecutionResult)
    (verdicates : List JsString) (rows : List SubmissionResult) : Prop where
  trace : ∃ batch clock, tr = ⟨.getTestCases e.problemId, .ok testCases⟩ ::
      ⟨.findProblem e.problemId, .ok (some problem)⟩ :: (batch ++ clock) ∧
    (executeBatch boxId e.code e.language testCases
      (judgeConfig ⟨problem.memoryLimit, problem.timeLimit⟩)).Eval batch (.ok results) ∧
    ∀ x ∈ clock, x.1 = .now
  validated : Validated results testCases verdicates
  rows_eq : rows.map (fun row ↦ { row with createdAt := 0 }) =
    (judgements verdicates results testCases).map fun j ↦ resultRow e.submissionId j 0

/-- A trace determines what was judged in it. -/
theorem Judged.unique {run run' : List (Event Call.Res)} {testCases testCases' : List TestCase}
    {problem problem' : Problem} {results results' : List ExecutionResult}
    {verdicates verdicates' : List JsString} {rows rows' : List SubmissionResult}
    (h : Judged e boxId run testCases problem results verdicates rows)
    (h' : Judged e boxId run' testCases' problem' results' verdicates' rows')
    (hp : run <+: tr) (hp' : run' <+: tr) : testCases = testCases' ∧ problem = problem' ∧
      results = results' ∧ verdicates = verdicates' := by
  obtain ⟨batch, clock, rfl, heval, -⟩ := h.trace
  obtain ⟨batch', clock', rfl, heval', -⟩ := h'.trace
  obtain ⟨rest, rfl⟩ := hp
  obtain ⟨hg, hp₁⟩ := List.cons_prefix_cons.mp hp'
  obtain ⟨hf, hp₂⟩ := List.cons_prefix_cons.mp hp₁
  obtain rfl : testCases' = testCases := by simpa using hg
  obtain rfl : problem' = problem := by simpa using hf
  obtain ⟨-, hr⟩ := heval.eq_of_prefix heval' (List.prefix_append batch (clock ++ rest))
    ((List.prefix_append batch' clock').trans (by simpa using hp₂))
  cases hr
  have hv := h'.validated.eq_ok
  rw [h.validated.eq_ok] at hv
  exact ⟨rfl, rfl, rfl, Except.ok.inj hv⟩

theorem Judged.length_eq {testCases : List TestCase} {problem : Problem}
    {results : List ExecutionResult} {verdicates : List JsString} {rows : List SubmissionResult}
    (h : Judged e boxId tr testCases problem results verdicates rows) :
    results.length = testCases.length := by
  obtain ⟨batch, -, -, heval, -⟩ := h.trace
  exact length_executeBatch heval

theorem Judged.judgements_eq_nil_iff {testCases : List TestCase} {problem : Problem}
    {results : List ExecutionResult} {verdicates : List JsString} {rows : List SubmissionResult}
    (h : Judged e boxId tr testCases problem results verdicates rows) :
    judgements verdicates results testCases = [] ↔ testCases = [] := by
  have hlen := h.length_eq
  have hv := h.validated
  constructor
  · intro hnil
    cases hv with
    | nil => exact List.length_eq_zero_iff.mp hlen.symm
    | stop _ => cases hnil
    | cons _ _ => cases hnil
  · rintro rfl
    rw [judgements, List.zip_nil_right, List.zip_nil_right]

/-- Nothing is written before the verdicts are known. -/
theorem Judged.not_writes {testCases : List TestCase} {problem : Problem}
    {results : List ExecutionResult} {verdicates : List JsString} {rows : List SubmissionResult}
    (h : Judged e boxId tr testCases problem results verdicates rows) :
    ∀ x ∈ tr, ¬x.1.Writes := by
  obtain ⟨batch, clock, rfl, heval, hclock⟩ := h.trace
  have hbatch : ∀ x ∈ batch, ¬x.1.Writes := fun x hx ↦
    (executeBatch_keeps.forall_mem heval x hx).not_writes
  have hnow : ∀ x ∈ clock, ¬x.1.Writes := fun x hx ↦ by rw [hclock x hx]; exact id
  intro x hx
  simp only [List.mem_cons, List.mem_append] at hx
  rcases hx with rfl | rfl | hx | hx
  · exact id
  · exact id
  · exact hbatch x hx
  · exact hnow x hx

theorem eval_getTestCases_iff {problemId : Option ℤ} {out : Except JsString (List TestCase)} :
    (getTestCases problemId).Eval tr out ↔ tr = [⟨.getTestCases problemId, out⟩] := by
  rw [getTestCases, Program.eval_request_bind_iff]
  simp [and_comm]

theorem eval_getProblemDetails {problemId : Option ℤ} {out : Except JsString ProblemDetails}
    (h : (getProblemDetails problemId).Eval tr out) :
    ∃ r, tr = [⟨.findProblem problemId, r⟩] ∧
      ((∃ problem, r = .ok (some problem) ∧ out = .ok ⟨problem.memoryLimit, problem.timeLimit⟩) ∨
      ((r = .ok none ∨ ∃ err, r = .error err) ∧ ∃ err, out = .error err)) := by
  obtain ⟨r, tr', rfl, hr⟩ := Program.eval_request_bind_iff.mp h
  clear h
  match r, hr with
  | .error err, ⟨htr, hout⟩ =>
    exact ⟨_, by rw [htr], Or.inr ⟨Or.inr ⟨err, rfl⟩, err, hout⟩⟩
  | .ok none, ⟨htr, hout⟩ => exact ⟨_, by rw [htr], Or.inr ⟨Or.inl rfl, _, hout⟩⟩
  | .ok (some problem), ⟨htr, hout⟩ => exact ⟨_, by rw [htr], Or.inl ⟨problem, rfl, hout⟩⟩

/-- Building the rows reads the clock once per row and leaves only the times open. -/
theorem eval_submissionResults {submissionId : Option ℤ} {js : List Judgement}
    {out : Except JsString (List SubmissionResult)}
    (h : (submissionResults submissionId js).Eval tr out) :
    (∀ x ∈ tr, x.1 = .now) ∧ ∃ rows, out = .ok rows ∧
      rows.map (fun row ↦ { row with createdAt := 0 }) =
        js.map fun j ↦ resultRow submissionId j 0 := by
  rw [submissionResults] at h
  induction js generalizing tr out with
  | nil =>
    obtain ⟨rfl, rfl⟩ := h
    exact ⟨by simp, [], rfl, rfl⟩
  | cons j js ih =>
    obtain ⟨createdAt, tr₁, rfl, h⟩ := h
    have h : ((submissionResults submissionId js).bind fun rows ↦
        .pure (resultRow submissionId j createdAt :: rows)).Eval tr₁ out := h
    rcases Program.eval_bind_iff.mp h with ⟨err, herr, rfl⟩ | ⟨rows, tr₂, tr₃, rfl, h₂, rfl, rfl⟩
    · obtain ⟨-, rows, hrows, -⟩ := ih herr
      cases hrows
    · obtain ⟨hnow, rows', hrows, heq⟩ := ih h₂
      cases hrows
      refine ⟨?_, _, rfl, ?_⟩
      · simpa using hnow
      · rw [List.map_cons, heq, List.map_cons, resultRow, resultRow]

theorem eval_runSubmission {out : Except JsString
      (List JsString × List Judgement × List SubmissionResult)}
    (h : (runSubmission e boxId).Eval tr out) :
    (∃ r r' err, tr = [⟨.getTestCases e.problemId, r⟩, ⟨.findProblem e.problemId, r'⟩] ∧
      ((∃ err, r = .error err) ∨ r' = .ok none ∨ ∃ err, r' = .error err) ∧ out = .error err) ∨
    ∃ testCases problem results verdicates rows,
      Judged e boxId tr testCases problem results verdicates rows ∧
      out = .ok (verdicates, judgements verdicates results testCases, rows) := by
  rcases Program.eval_bind_iff.mp h with ⟨err, herr, rfl⟩ |
    ⟨⟨tests, details⟩, tr₁, tr₂, rfl, h₁, h₂⟩
  · refine Or.inl ?_
    obtain ⟨tr₁, tr₂, a, b, rfl, ha, hb, hab⟩ := herr.both_error
    rw [eval_getTestCases_iff] at ha
    obtain ⟨r, rfl, hr⟩ := eval_getProblemDetails hb
    subst ha
    refine ⟨a, r, err, rfl, ?_, rfl⟩
    rcases hab with rfl | rfl
    · exact Or.inl ⟨err, rfl⟩
    · rcases hr with ⟨problem, -, hout⟩ | ⟨hr, -⟩
      · cases hout
      · exact Or.inr hr
  · refine Or.inr ?_
    obtain ⟨tr₃, tr₄, rfl, ha, hb⟩ := Program.eval_both_ok_iff.mp h₁
    rw [eval_getTestCases_iff] at ha
    obtain ⟨r, rfl, ⟨problem, rfl, hdetails⟩ | ⟨-, err, hout⟩⟩ := eval_getProblemDetails hb
    swap
    · cases hout
    subst ha
    cases hdetails
    rcases Program.eval_bind_iff.mp h₂ with ⟨err, herr, -⟩ | ⟨results, batch, tr₅, rfl, h₃, h₄⟩
    · obtain ⟨results, hout, -⟩ := eval_executeBatch herr
      cases hout
    obtain ⟨verdicates, hv⟩ := exists_validateResults (length_executeBatch h₃)
    rw [hv] at h₄
    have h₄ : ((submissionResults e.submissionId (judgements verdicates results tests)).bind
        fun rows ↦ .pure (verdicates, judgements verdicates results tests, rows)).Eval tr₅ out := h₄
    rcases Program.eval_bind_iff.mp h₄ with ⟨err, herr, -⟩ | ⟨rows, clock, tr₆, rfl, h₅, rfl, rfl⟩
    · obtain ⟨-, rows, hout, -⟩ := eval_submissionResults herr
      cases hout
    obtain ⟨hclock, rows', hrows, heq⟩ := eval_submissionResults h₅
    cases hrows
    exact ⟨tests, problem, results, verdicates, rows,
      ⟨⟨batch, clock, by simp, h₃, hclock⟩, validated_of_eq_ok hv, heq⟩, rfl⟩

/-- A run up to the first write, from its batch and the readings of the clock. -/
theorem eval_runSubmission_of {testCases : List TestCase} {problem : Problem}
    {results : List ExecutionResult} {verdicates : List JsString} {rows : List SubmissionResult}
    {batch clock : List (Event Call.Res)}
    (hbatch : (executeBatch boxId e.code e.language testCases
      (judgeConfig ⟨problem.memoryLimit, problem.timeLimit⟩)).Eval batch (.ok results))
    (hv : validateResults results testCases = .ok verdicates)
    (hrows : (submissionResults e.submissionId (judgements verdicates results testCases)).Eval clock
      (.ok rows)) :
    (runSubmission e boxId).Eval (⟨.getTestCases e.problemId, .ok testCases⟩ ::
        ⟨.findProblem e.problemId, .ok (some problem)⟩ :: (batch ++ clock))
      (.ok (verdicates, judgements verdicates results testCases, rows)) := by
  refine Program.eval_bind_iff.mpr (Or.inr ⟨(testCases, ⟨problem.memoryLimit, problem.timeLimit⟩),
    [_, _], _, rfl, ⟨_, _, rfl, _, _, rfl, rfl, rfl⟩, ?_⟩)
  refine Program.eval_bind_iff.mpr (Or.inr ⟨results, batch, clock, rfl, hbatch, ?_⟩)
  dsimp only
  rw [hv]
  refine Program.eval_bind_iff.mpr (Or.inr ⟨verdicates, [], clock, rfl, ⟨rfl, rfl⟩, ?_⟩)
  exact Program.eval_bind_iff.mpr
    (Or.inr ⟨rows, clock, [], (List.append_nil clock).symm, hrows, rfl, rfl⟩)

/-! ## The writes -/

/-- The first write, for the given verdicts and rounds. -/
abbrev updateCall (e : SubmissionQueuedEvent) (verdicates : List JsString) (js : List Judgement) :
    Call :=
  .updateSubmission e.submissionId (finalVerdicate verdicates) (exectionTime js) (memoryUsed js)

theorem updateEvent_congr {submissionId : Option ℤ} {v : JsString} {t t' m m' : ℚ} (ht : t = t')
    (hm : m = m') (r : Except JsString Unit) :
    (⟨.updateSubmission submissionId v t m, r⟩ : Event Call.Res)
      = ⟨.updateSubmission submissionId v t' m', r⟩ := by
  rw [ht, hm]

/-- The three ways a judged submission is written: the first write rejects, the second does, or
both succeed and only the latency is left. -/
inductive Written (e : SubmissionQueuedEvent) (verdicates : List JsString) (js : List Judgement)
    (rows : List SubmissionResult) : List (Event Call.Res) → Except JsString (List JsString) → Prop
  | updateFailed (err : JsString) :
      Written e verdicates js rows [⟨updateCall e verdicates js, .error err⟩] (.error err)
  | insertFailed (err : JsString) :
      Written e verdicates js rows
        [⟨updateCall e verdicates js, .ok ()⟩, ⟨.createMany rows, .error err⟩] (.error err)
  | both (startTime : Option ℤ) (finishTime : ℤ) (seconds : Option ℚ) (r : Except JsString Unit) :
      Written e verdicates js rows
        [⟨updateCall e verdicates js, .ok ()⟩, ⟨.createMany rows, .ok ()⟩,
          ⟨.getTime e.timestamp, startTime⟩, ⟨.now, finishTime⟩, ⟨.observe seconds, r⟩]
        (r.map fun _ ↦ verdicates)

theorem eval_updateSubmission_iff {submissionId : Option ℤ} {verdict : JsString} {t m : ℚ}
    {out : Except JsString Unit} : (updateSubmission submissionId verdict t m).Eval tr out ↔
      tr = [⟨.updateSubmission submissionId verdict t m, out⟩] := by
  rw [updateSubmission, Program.eval_request_bind_iff]
  simp [and_comm]

theorem eval_addSubmissionResults_iff {data : List SubmissionResult} {out : Except JsString Unit} :
    (addSubmissionResults data).Eval tr out ↔ tr = [⟨.createMany data, out⟩] := by
  rw [addSubmissionResults, Program.eval_request_bind_iff]
  simp [and_comm]

theorem eval_observeLatency {timestamp : Option JsString} {out : Except JsString Unit}
    (h : (observeLatency timestamp).Eval tr out) : ∃ startTime finishTime seconds,
      tr = [⟨.getTime timestamp, startTime⟩, ⟨.now, finishTime⟩, ⟨.observe seconds, out⟩] := by
  obtain ⟨startTime, tr₁, rfl, finishTime, tr₂, rfl, r, tr₃, rfl, h⟩ := h
  obtain ⟨rfl, rfl⟩ := Program.eval_ofExcept_iff.mp h
  exact ⟨startTime, finishTime, _, rfl⟩

/-- **Every run of `judgeSubmission`.** Either loading failed and nothing was written, or the
submission was judged and then written in one of three ways. -/
theorem eval_judgeSubmission {out : Except JsString (List JsString)}
    (h : (judgeSubmission (some e) boxId).Eval tr out) :
    (∃ r r' err, tr = [⟨.getTestCases e.problemId, r⟩, ⟨.findProblem e.problemId, r'⟩] ∧
      ((∃ err, r = .error err) ∨ r' = .ok none ∨ ∃ err, r' = .error err) ∧ out = .error err) ∨
    ∃ run writes testCases problem results verdicates rows, tr = run ++ writes ∧
      Judged e boxId run testCases problem results verdicates rows ∧
      Written e verdicates (judgements verdicates results testCases) rows writes out := by
  rcases Program.eval_bind_iff.mp h with ⟨err, herr, rfl⟩ |
    ⟨⟨verdicates, js, rows⟩, run, writes, rfl, h₁, h₂⟩
  · rcases eval_runSubmission herr with ⟨r, r', err', htr, hr, hout⟩ | ⟨_, _, _, _, _, -, hout⟩
    · cases hout
      exact Or.inl ⟨r, r', err, htr, hr, rfl⟩
    · cases hout
  rcases eval_runSubmission h₁ with ⟨_, _, _, -, -, hout⟩ |
    ⟨testCases, problem, results, verdicates', rows', hjudged, hout⟩
  · cases hout
  cases hout
  refine Or.inr ⟨run, writes, testCases, problem, results, verdicates, rows, rfl, hjudged, ?_⟩
  rcases Program.eval_bind_iff.mp h₂ with ⟨err, herr, rfl⟩ | ⟨_, tr₁, tr₂, rfl, h₃, h₄⟩
  · rw [eval_updateSubmission_iff] at herr
    subst herr
    exact .updateFailed err
  rw [eval_updateSubmission_iff] at h₃
  subst h₃
  rcases Program.eval_bind_iff.mp h₄ with ⟨err, herr, rfl⟩ | ⟨_, tr₃, tr₄, rfl, h₅, h₆⟩
  · rw [eval_addSubmissionResults_iff] at herr
    subst herr
    exact .insertFailed err
  rw [eval_addSubmissionResults_iff] at h₅
  subst h₅
  rcases Program.eval_bind_iff.mp h₆ with ⟨err, herr, rfl⟩ | ⟨_, tr₅, tr₆, rfl, h₇, rfl, rfl⟩
  · obtain ⟨startTime, finishTime, seconds, rfl⟩ := eval_observeLatency herr
    exact .both startTime finishTime seconds (.error err)
  · obtain ⟨startTime, finishTime, seconds, rfl⟩ := eval_observeLatency h₇
    exact .both startTime finishTime seconds (.ok ())

end JudgeIt
