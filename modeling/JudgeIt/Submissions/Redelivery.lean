import JudgeIt.Submissions.Recording

/-!
# Judging a redelivered event

A message whose offset was not committed is delivered again, and its event is judged again. The two
writes of a run answer differently to that: the verdict is overwritten, the result rows are
appended. Either write may be rejected in either run. So a second run with the same inputs leaves
what the first one left exactly when its verdict was rejected, or when the verdict was there before
it and no row was added to those of the first run.
-/

namespace JudgeIt

open Async Database

variable {e : SubmissionQueuedEvent} {boxId b₁ b₂ : ℕ}
  {tr tr₁ tr₂ run run₁ run₂ writes : List (Event Call.Res)}
  {testCases : List TestCase} {problem : Problem} {results : List ExecutionResult}
  {verdicates : List JsString} {js : List Judgement}
  {rows rows₁ rows₂ : List SubmissionResult}
  {out out₁ out₂ : Except JsString (List JsString)} {db db' db₁ db₂ : Database} {id : ℤ}

/-- The run was given these tests, this problem and these results of the sandbox. -/
def Inputs (e : SubmissionQueuedEvent) (boxId : ℕ) (tr : List (Event Call.Res))
    (testCases : List TestCase) (problem : Problem) (results : List ExecutionResult) : Prop :=
  ∃ run verdicates rows, run <+: tr ∧
    Judged e boxId run testCases problem results verdicates rows

/-- The databases agree on the verdict and on the collection of result rows of a submission, up to
times. -/
def SameRecord (id : ℤ) (db db' : Database) : Prop :=
  (db'.submission? id).map (·.verdicate) = (db.submission? id).map (·.verdicate) ∧
    (db'.resultsOf id).Perm (db.resultsOf id)

/-- The verdict was stored in the trace. -/
def VerdictStored (tr : List (Event Call.Res)) : Prop :=
  ∃ submissionId v t m, ⟨.updateSubmission submissionId v t m, .ok ()⟩ ∈ tr

/-- The result rows were stored in the trace. -/
def RowsStored (tr : List (Event Call.Res)) : Prop := ∃ data, ⟨.createMany data, .ok ()⟩ ∈ tr

/-- The run had no test to judge. -/
def Untested (e : SubmissionQueuedEvent) (boxId : ℕ) (tr : List (Event Call.Res)) : Prop :=
  ∀ testCases problem results, Inputs e boxId tr testCases problem results → testCases = []

/-- The database has the final verdict that the inputs of the run lead to. -/
def HoldsVerdict (e : SubmissionQueuedEvent) (boxId : ℕ) (tr : List (Event Call.Res)) (id : ℤ)
    (db : Database) : Prop :=
  ∃ testCases problem results verdicates, Inputs e boxId tr testCases problem results ∧
    validateResults results testCases = .ok verdicates ∧
    (db.submission? id).map (·.verdicate) = some (finalVerdicate verdicates)

theorem Judged.inputs_iff (h : Judged e boxId run testCases problem results verdicates rows)
    (hp : run <+: tr) {testCases' : List TestCase} {problem' : Problem}
    {results' : List ExecutionResult} : Inputs e boxId tr testCases' problem' results' ↔
      testCases' = testCases ∧ problem' = problem ∧ results' = results := by
  constructor
  · rintro ⟨run', _, _, hp', h'⟩
    obtain ⟨rfl, rfl, rfl, -⟩ := h.unique h' hp hp'
    exact ⟨rfl, rfl, rfl⟩
  · rintro ⟨rfl, rfl, rfl⟩
    exact ⟨run, _, _, hp, h⟩

/-- Where loading failed there are no inputs. -/
theorem not_inputs_of_not_loaded {r : Except JsString (List TestCase)}
    {r' : Except JsString (Option Problem)}
    (hr : (∃ err, r = .error err) ∨ r' = .ok none ∨ ∃ err, r' = .error err) :
    ¬Inputs e boxId [⟨.getTestCases e.problemId, r⟩, ⟨.findProblem e.problemId, r'⟩] testCases
      problem results := by
  rintro ⟨run, verdicates, rows, hp, hjudged⟩
  obtain ⟨batch, clock, rfl, -, -⟩ := hjudged.trace
  rw [List.cons_prefix_cons, List.cons_prefix_cons] at hp
  obtain ⟨hr₁, hr₂, -⟩ := hp
  rcases hr with ⟨_, rfl⟩ | rfl | ⟨_, rfl⟩
  · simp at hr₁
  · simp at hr₂
  · simp at hr₂

theorem Judged.untested_iff (h : Judged e boxId run testCases problem results verdicates rows)
    (hp : run <+: tr) : Untested e boxId tr ↔ testCases = [] := by
  constructor
  · exact fun hnone ↦ hnone _ _ _ ((h.inputs_iff hp).mpr ⟨rfl, rfl, rfl⟩)
  · intro hnil _ _ _ hinputs
    rw [((h.inputs_iff hp).mp hinputs).1, hnil]

theorem Judged.holdsVerdict_iff
    (h : Judged e boxId run testCases problem results verdicates rows) (hp : run <+: tr) :
    HoldsVerdict e boxId tr id db ↔
      (db.submission? id).map (·.verdicate) = some (finalVerdicate verdicates) := by
  constructor
  · rintro ⟨_, _, _, verdicates', hinputs, hv, hdb⟩
    obtain ⟨rfl, rfl, rfl⟩ := (h.inputs_iff hp).mp hinputs
    rw [h.validated.eq_ok] at hv
    rwa [Except.ok.inj hv]
  · exact fun hdb ↦ ⟨_, _, _, _, (h.inputs_iff hp).mpr ⟨rfl, rfl, rfl⟩, h.validated.eq_ok, hdb⟩

/-! ## What the writes leave -/

theorem Judged.stored_iff (h : Judged e boxId run testCases problem results verdicates rows) :
    (VerdictStored (run ++ writes) ↔ VerdictStored writes) ∧
      (RowsStored (run ++ writes) ↔ RowsStored writes) := by
  have hupdate : ∀ i v t m, (⟨.updateSubmission i v t m, .ok ()⟩ : Event Call.Res) ∉ run :=
    fun i v t m hmem ↦ h.not_writes _ hmem trivial
  have hinsert : ∀ data, (⟨.createMany data, .ok ()⟩ : Event Call.Res) ∉ run :=
    fun data hmem ↦ h.not_writes _ hmem trivial
  simp [VerdictStored, RowsStored, hupdate, hinsert]

/-- Either the verdict was rejected and nothing has changed, or the database has the verdict, and
the rows behind those it had if they were stored. -/
theorem Written.record (h : Written e verdicates (judgements verdicates results testCases) rows
      writes out) (hjudged : Judged e boxId run testCases problem results verdicates rows)
    (he : e.submissionId = some id) (hs : Answers.Steps db writes db') :
    (¬VerdictStored writes ∧ db' = db) ∨
    (VerdictStored writes ∧
      (db'.submission? id).map (·.verdicate) = some (finalVerdicate verdicates) ∧
      ((¬RowsStored writes ∧ db'.resultsOf id = db.resultsOf id) ∨
        (RowsStored writes ∧ db'.resultsOf id = db.resultsOf id ++
          (judgements verdicates results testCases).map (judgementRow id)))) := by
  cases h with
  | updateFailed err =>
    obtain ⟨db₁, h₁, rfl⟩ := hs
    exact Or.inl ⟨by simp [VerdictStored], h₁.eq_of_error_update⟩
  | insertFailed err =>
    obtain ⟨db₁, h₁, db₂, h₂, rfl⟩ := hs
    obtain rfl := h₂.eq_of_error_createMany
    obtain ⟨hverdict, hrows⟩ := recorded_of_updateSubmission he h₁
    exact Or.inr ⟨⟨_, _, _, _, List.mem_cons_self⟩, hverdict,
      Or.inl ⟨by simp [RowsStored], hrows⟩⟩
  | both startTime finishTime seconds r =>
    obtain ⟨db₁, h₁, db₂, h₂, h₃⟩ := hs
    obtain rfl : db' = db₂ := Answers.steps_eq_of_not_writes h₃ (by simp [Call.Writes])
    obtain ⟨hverdict, hrows⟩ := recorded_of_updateSubmission he h₁
    refine Or.inr ⟨⟨_, _, _, _, List.mem_cons_self⟩, ?_, Or.inr ⟨⟨rows, by simp⟩, ?_⟩⟩
    · rw [submission?_of_createMany h₂, hverdict]
    · rw [resultsOf_createMany hjudged he h₂, hrows]

/-- The writes of the same verdicts, twice. -/
theorem Written.twice_same_iff (he : e.submissionId = some id)
    {writes₁ writes₂ : List (Event Call.Res)}
    (hjudged₁ : Judged e b₁ run₁ testCases problem results verdicates rows₁)
    (hjudged₂ : Judged e b₂ run₂ testCases problem results verdicates rows₂)
    (h₁ : Written e verdicates (judgements verdicates results testCases) rows₁ writes₁ out₁)
    (hs₁ : Answers.Steps db writes₁ db₁)
    (h₂ : Written e verdicates (judgements verdicates results testCases) rows₂ writes₂ out₂)
    (hs₂ : Answers.Steps db₁ writes₂ db₂) :
    SameRecord id db₁ db₂ ↔ ¬VerdictStored writes₂ ∨
      ((VerdictStored writes₁ ∨
        (db.submission? id).map (·.verdicate) = some (finalVerdicate verdicates)) ∧
        (testCases = [] ∨ ¬RowsStored writes₂)) := by
  rcases h₂.record hjudged₂ he hs₂ with ⟨hno, rfl⟩ | ⟨hstored, hverdict, hresults⟩
  · exact iff_of_true ⟨rfl, List.Perm.refl _⟩ (Or.inl hno)
  -- The second verdict is stored, so the first run must have left it there.
  have hfirst : (db₁.submission? id).map (·.verdicate) = some (finalVerdicate verdicates) ↔
      VerdictStored writes₁ ∨
        (db.submission? id).map (·.verdicate) = some (finalVerdicate verdicates) := by
    rcases h₁.record hjudged₁ he hs₁ with ⟨hno, rfl⟩ | ⟨hstored, hverdict, -⟩
    · rw [or_iff_right hno]
    · exact iff_of_true hverdict (Or.inl hstored)
  -- The second rows come on top, one for each verdict.
  have hperm : (db₂.resultsOf id).Perm (db₁.resultsOf id) ↔
      testCases = [] ∨ ¬RowsStored writes₂ := by
    rcases hresults with ⟨hno, hresults⟩ | ⟨hrows, hresults⟩
    · rw [hresults]
      exact iff_of_true (List.Perm.refl _) (Or.inr hno)
    rw [hresults, or_iff_left (not_not.mpr hrows), ← hjudged₂.judgements_eq_nil_iff]
    constructor
    · intro h
      simpa using h.length_eq
    · intro hnil
      rw [hnil, List.map_nil, List.append_nil]
  rw [SameRecord, hverdict, hperm, eq_comm, hfirst, or_iff_right (not_not.mpr hstored)]

/-! ## The second run -/

/-- Two runs on one event with the same inputs, the second from what the first one left, with any
write rejected or not: the second leaves the same record exactly when its verdict was not stored, or
when the verdict was there before, stored by the first run or held by the database, and no row was
added, because there are no tests or because the rows were not stored. -/
theorem redelivered_same_iff (he : e.submissionId = some id)
    (h₁ : (judgeSubmission (some e) b₁).Eval tr₁ out₁) (hs₁ : Answers.Steps db tr₁ db₁)
    (h₂ : (judgeSubmission (some e) b₂).Eval tr₂ out₂) (hs₂ : Answers.Steps db₁ tr₂ db₂)
    (hin : ∀ testCases problem results,
      Inputs e b₁ tr₁ testCases problem results ↔ Inputs e b₂ tr₂ testCases problem results) :
    SameRecord id db₁ db₂ ↔ ¬VerdictStored tr₂ ∨
      ((VerdictStored tr₁ ∨ HoldsVerdict e b₁ tr₁ id db) ∧
        (Untested e b₁ tr₁ ∨ ¬RowsStored tr₂)) := by
  rcases eval_judgeSubmission h₂ with ⟨r, r', err, rfl, hr, -⟩ |
    ⟨run₂, writes₂, testCases, problem, results, verdicates, rows₂, rfl, hjudged₂, hwritten₂⟩
  · obtain rfl : db₂ = db₁ := Answers.steps_eq_of_not_writes hs₂ (by simp [Call.Writes])
    exact iff_of_true ⟨rfl, List.Perm.refl _⟩ (Or.inl (by simp [VerdictStored]))
  have hinputs := (hin _ _ _).mpr ((hjudged₂.inputs_iff (List.prefix_append run₂ writes₂)).mpr
    ⟨rfl, rfl, rfl⟩)
  rcases eval_judgeSubmission h₁ with ⟨r, r', err, rfl, hr, -⟩ |
    ⟨run₁, writes₁, testCases', problem', results', verdicates₁, rows₁, rfl, hjudged₁, hwritten₁⟩
  · exact absurd hinputs (not_inputs_of_not_loaded hr)
  have hp : run₁ <+: run₁ ++ writes₁ := List.prefix_append run₁ writes₁
  obtain ⟨rfl, rfl, rfl⟩ := (hjudged₁.inputs_iff hp).mp hinputs
  have hv := hjudged₂.validated.eq_ok
  rw [hjudged₁.validated.eq_ok] at hv
  obtain rfl := Except.ok.inj hv
  rw [hjudged₁.untested_iff hp, hjudged₁.holdsVerdict_iff hp, hjudged₁.stored_iff.1,
    hjudged₂.stored_iff.1, hjudged₂.stored_iff.2]
  exact Written.twice_same_iff he hjudged₁ hjudged₂ hwritten₁ (hjudged₁.steps_writes hs₁) hwritten₂
    (hjudged₂.steps_writes hs₂)

/-! ## The same rows twice -/

/-- A run whose box cannot be initialised, and nothing else fails. -/
def recordedTrace : List (Event Call.Res) :=
  [⟨.getTestCases (some 7), .ok [sumTest]⟩, ⟨.findProblem (some 7), .ok (some sumProblem)⟩,
    ⟨.exec (.init 0), .error "Error: Command failed"⟩, ⟨.now, (1000 : ℤ)⟩,
    ⟨.updateSubmission (some 1) "SE" 0 0, .ok ()⟩,
    ⟨.createMany [⟨some 1, "1", none, none, "SE", 1000⟩], .ok ()⟩,
    ⟨.getTime (some "2025-01-01T00:00:00.000Z"), some (0 : ℤ)⟩, ⟨.now, (1000 : ℤ)⟩,
    ⟨.observe (some ((1000 - 0 : ℤ) / 1000)), .ok ()⟩]

theorem inputs_recordedTrace : Inputs uncompilable 0 recordedTrace [sumTest] sumProblem
    (buildErrorResults [sumTest] "Failed to initialize sandbox" .SE) := by
  refine ⟨recordedTrace.take 4, ["SE"], [⟨some 1, "1", none, none, "SE", 1000⟩],
    List.take_prefix 4 recordedTrace, ⟨[_], [⟨.now, (1000 : ℤ)⟩], rfl, ?_, by simp⟩, ?_, rfl⟩
  · exact ⟨.error "Error: Command failed", _, rfl, rfl, rfl⟩
  · exact validated_of_eq_ok (by decide +kernel)

/-- What the given number of such runs leaves. -/
def recordedDatabase (n : ℕ) : Database :=
  { pendingDatabase.modifySubmission 1 "SE" 0 0 with
    results := List.replicate n ⟨1, "1", "SE", none, none, 1000⟩ }

theorem eval_recordedTrace :
    (judgeSubmission (some uncompilable) 0).Eval recordedTrace (.ok ["SE"]) := by
  refine ⟨.ok [sumTest], _, rfl, .ok (some sumProblem), _, rfl, .error "Error: Command failed", _,
    rfl, (1000 : ℤ), _, rfl, .ok (), _, congrArg (· :: _) (updateEvent_congr ?_ ?_ _),
    .ok (), _, rfl,
    some (0 : ℤ), _, rfl, (1000 : ℤ), _, rfl, .ok (), _, rfl, rfl, rfl⟩
  · decide +kernel
  · decide +kernel

theorem steps_recordedTrace :
    Answers.Steps pendingDatabase recordedTrace (recordedDatabase 1) ∧
      Answers.Steps (recordedDatabase 1) recordedTrace (recordedDatabase 2) :=
  ⟨⟨_, rfl, _, ⟨rfl, rfl⟩, _, rfl, _, rfl, _, rfl, _, rfl, _, rfl, _, rfl, _, rfl, rfl⟩,
    ⟨_, rfl, _, ⟨rfl, rfl⟩, _, rfl, _, rfl, _, rfl, _, rfl, _, rfl, _, rfl, _, rfl, rfl⟩⟩

/-- A second run whose rows are rejected leaves the record as it is; one that stores them does
not. -/
theorem redelivered_same_iff_recorded :
    SameRecord 1 tornDatabase (tornDatabase.modifySubmission 1 "SE" 0 0) ∧
      ¬SameRecord 1 (recordedDatabase 1) (recordedDatabase 2) := by
  constructor
  · refine (redelivered_same_iff rfl eval_tornTrace steps_tornTrace
      eval_tornTrace ?_ fun _ _ _ ↦ Iff.rfl).mpr ?_
    · exact ⟨_, rfl, _, ⟨rfl, rfl⟩, _, rfl, _, rfl, _, rfl, _, rfl, rfl⟩
    · exact Or.inr ⟨Or.inl ⟨some 1, "SE", 0, 0, by simp [tornTrace]⟩,
        Or.inr (by simp [RowsStored, tornTrace])⟩
  · intro hsame
    rcases (redelivered_same_iff rfl eval_recordedTrace steps_recordedTrace.1 eval_recordedTrace
      steps_recordedTrace.2 fun _ _ _ ↦ Iff.rfl).mp hsame with hno | ⟨-, huntested | hno⟩
    · exact hno ⟨some 1, "SE", 0, 0, by simp [recordedTrace]⟩
    · exact absurd (huntested _ _ _ inputs_recordedTrace) (List.cons_ne_nil _ _)
    · exact hno ⟨_, by simp [recordedTrace]; rfl⟩

/-- Judging a redelivered event again duplicates its result row. -/
theorem redelivered_duplicates :
    (judgeSubmission (some uncompilable) 0).Eval recordedTrace (.ok ["SE"]) ∧
      Answers.Steps pendingDatabase recordedTrace (recordedDatabase 1) ∧
      Answers.Steps (recordedDatabase 1) recordedTrace (recordedDatabase 2) ∧
      ¬SameRecord 1 (recordedDatabase 1) (recordedDatabase 2) :=
  ⟨eval_recordedTrace, steps_recordedTrace.1, steps_recordedTrace.2, fun h ↦ by
    have hlen := h.2.length_eq
    revert hlen
    decide⟩

end JudgeIt
