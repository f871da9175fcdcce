import JudgeIt.Judge.Accepted
import JudgeIt.Submissions.Database

/-!
# Recording a judged submission

What a run of `judgeSubmission` does to the database, and what is left when it fails. Nothing is
written before the verdicts are known; then the verdict is stored, and then the result rows are
inserted, in two calls that are not one transaction. So the run is atomic except where the second
call rejects after the first one changed something.
-/

namespace JudgeIt

open Async

variable {e : SubmissionQueuedEvent} {boxId : ℕ} {tr run writes : List (Event Call.Res)}
  {testCases : List TestCase} {problem : Problem} {results : List ExecutionResult}
  {verdicates : List JsString} {js : List Judgement} {rows : List SubmissionResult}
  {out : Except JsString (List JsString)} {db db' : Database} {id : ℤ}

/-! ## Running the judge against the database -/

namespace Database

theorem Answers.eq_of_not_writes {op : Call} {r : op.Res} (h : Answers db op r db')
    (hop : ¬op.Writes) : db' = db := by
  cases op with
  | findProblem id =>
    cases r with
    | error _ => exact h
    | ok _ => exact h.1
  | createSubmission => exact absurd trivial hop
  | updateSubmission => exact absurd trivial hop
  | createMany => exact absurd trivial hop
  | _ => exact h

theorem Answers.eq_of_error_update {submissionId : Option ℤ} {v : JsString} {t m : ℚ}
    {err : JsString} (h : Answers db (.updateSubmission submissionId v t m) (.error err) db') :
    db' = db := h

theorem Answers.eq_of_error_createMany {data : List SubmissionResult} {err : JsString}
    (h : Answers db (.createMany data) (.error err) db') : db' = db := h

theorem Answers.steps_eq_of_not_writes (h : Answers.Steps db tr db')
    (htr : ∀ x ∈ tr, ¬x.1.Writes) : db' = db :=
  Env.steps_of_frame (fun x hx _ _ hs ↦ Answers.eq_of_not_writes hs (htr x hx)) h

end Database

open Database

theorem Judged.steps_writes (h : Judged e boxId run testCases problem results verdicates rows)
    (hs : Answers.Steps db (run ++ writes) db') : Answers.Steps db writes db' := by
  obtain ⟨db₀, hrun, hwrites⟩ := Env.steps_append.mp hs
  obtain rfl : db₀ = db := Answers.steps_eq_of_not_writes hrun h.not_writes
  exact hwrites

/-- After an update the row has the verdict, and the result rows are those of before. -/
theorem recorded_of_updateSubmission (he : e.submissionId = some id) {v : JsString} {t m : ℚ}
    (h : db.updateSubmission e.submissionId v t m = some db') :
    (db'.submission? id).map (·.verdicate) = some v ∧ db'.resultsOf id = db.resultsOf id := by
  obtain ⟨id', memory, hid, -, hrow, rfl⟩ := updateSubmission_eq_some_iff.mp h
  obtain rfl : id' = id := Option.some.inj (hid.symm.trans he)
  refine ⟨?_, resultsOf_modifySubmission⟩
  obtain ⟨s, hs⟩ := Option.isSome_iff_exists.mp hrow
  rw [verdicate_modifySubmission, hs]
  rfl

/-- The two writes of a judged submission, one after the other: the verdict is refused, or it is
stored and the rows are refused, or both are stored. -/
theorem Written.steps (h : Written e verdicates js rows writes out)
    (hs : Answers.Steps db writes db') :
    (db' = db ∧ ∃ err, writes = [⟨updateCall e verdicates js, .error err⟩]) ∨
    ∃ db₁, db.updateSubmission e.submissionId (finalVerdicate verdicates) (exectionTime js)
        (memoryUsed js) = some db₁ ∧
      ((db' = db₁ ∧ ∃ err, writes = [⟨updateCall e verdicates js, .ok ()⟩,
          ⟨.createMany rows, .error err⟩]) ∨
        (db₁.createMany rows = some db' ∧
          ∀ data err, ⟨.createMany data, .error err⟩ ∉ writes)) := by
  cases h with
  | updateFailed err =>
    obtain ⟨db₁, h₁, rfl⟩ := hs
    exact Or.inl ⟨h₁.eq_of_error_update, err, rfl⟩
  | insertFailed err =>
    obtain ⟨db₁, h₁, db₂, h₂, rfl⟩ := hs
    exact Or.inr ⟨db₁, h₁, Or.inl ⟨h₂.eq_of_error_createMany, err, rfl⟩⟩
  | both startTime finishTime seconds r =>
    obtain ⟨db₁, h₁, db₂, h₂, h₃⟩ := hs
    obtain rfl : db' = db₂ := Answers.steps_eq_of_not_writes h₃ (by simp [Call.Writes])
    exact Or.inr ⟨db₁, h₁, Or.inr ⟨h₂, by simp⟩⟩

/-! ## The rows that are inserted -/

/-- The row of one verdict, without its time. -/
def judgementRow (id : ℤ) (j : Judgement) : ResultRow where
  submissionId := id
  testcaseName := j.2.2.name
  verdict := j.1
  executionTime := j.2.1.time
  memoryUsed := j.2.1.memory
  createdAt := 0

theorem Judged.toRows (h : Judged e boxId run testCases problem results verdicates rows)
    (he : e.submissionId = some id) :
    (rows.filterMap SubmissionResult.toRow).map (fun row ↦ { row with createdAt := 0 })
      = (judgements verdicates results testCases).map (judgementRow id) := by
  have huntime : ∀ r : SubmissionResult, (r.toRow.map fun row ↦ { row with createdAt := 0 })
      = SubmissionResult.toRow { r with createdAt := 0 } := fun r ↦ by
    cases hr : r.submissionId <;> simp [SubmissionResult.toRow, hr]
  rw [List.map_filterMap, funext huntime, ← Function.comp_def SubmissionResult.toRow,
    ← List.filterMap_map, h.rows_eq, List.filterMap_map, he]
  exact congrFun List.filterMap_eq_map' _

theorem resultsOf_createMany (h : Judged e boxId run testCases problem results verdicates rows)
    (he : e.submissionId = some id) (hdb : db.createMany rows = some db') :
    db'.resultsOf id = db.resultsOf id ++
      (judgements verdicates results testCases).map (judgementRow id) := by
  obtain ⟨-, rfl⟩ := createMany_eq_some_iff.mp hdb
  rw [resultsOf, List.map_append, List.filter_append, h.toRows he, resultsOf]
  congr 1
  exact List.filter_eq_self.mpr (List.forall_mem_map.mpr fun _ _ ↦ by simp [judgementRow])

/-! ## Atomicity of a failed run -/

/-- What is stored of a submission: its row and its result rows. -/
def Database.stored (db : Database) (id : ℤ) : Option Submission × List ResultRow :=
  (db.submission? id, db.results.filter (·.submissionId = id))

/-- The database has the final verdict of the run, and for every verdict of the run its row. -/
def Complete (e : SubmissionQueuedEvent) (boxId : ℕ) (tr : List (Event Call.Res)) (id : ℤ)
    (db : Database) : Prop :=
  ∃ run testCases problem results verdicates rows, run <+: tr ∧
    Judged e boxId run testCases problem results verdicates rows ∧
    (db.submission? id).map (·.verdicate) = some (finalVerdicate verdicates) ∧
    ((judgements verdicates results testCases).map (judgementRow id)).Subperm (db.resultsOf id)

/-- The insertion of the result rows was rejected in the trace. -/
def InsertRejected (tr : List (Event Call.Res)) : Prop :=
  ∃ data err, ⟨.createMany data, .error err⟩ ∈ tr

/-- The verdict of the run is news to the database: the row does not hold it yet, figures included,
and some of the result rows are missing. -/
def News (e : SubmissionQueuedEvent) (boxId : ℕ) (tr : List (Event Call.Res)) (id : ℤ)
    (db : Database) : Prop :=
  ∃ run testCases problem results verdicates rows, run <+: tr ∧
    Judged e boxId run testCases problem results verdicates rows ∧
    (∃ memory, intColumn (memoryUsed (judgements verdicates results testCases)) = some memory ∧
      (db.submission? id).map (·.judged (finalVerdicate verdicates)
        (exectionTime (judgements verdicates results testCases)) memory) ≠ db.submission? id) ∧
    ¬((judgements verdicates results testCases).map (judgementRow id)).Subperm (db.resultsOf id)

theorem Judged.complete_iff (h : Judged e boxId run testCases problem results verdicates rows)
    (hp : run <+: tr) : Complete e boxId tr id db ↔
      (db.submission? id).map (·.verdicate) = some (finalVerdicate verdicates) ∧
      ((judgements verdicates results testCases).map (judgementRow id)).Subperm
        (db.resultsOf id) := by
  constructor
  · rintro ⟨run', _, _, _, _, _, hp', h', hv, hrows⟩
    obtain ⟨rfl, rfl, rfl, rfl⟩ := h.unique h' hp hp'
    exact ⟨hv, hrows⟩
  · rintro ⟨hv, hrows⟩
    exact ⟨run, _, _, _, _, _, hp, h, hv, hrows⟩

theorem Judged.news_iff (h : Judged e boxId run testCases problem results verdicates rows)
    (hp : run <+: tr) {memory : ℤ}
    (hm : intColumn (memoryUsed (judgements verdicates results testCases)) = some memory) :
    News e boxId tr id db ↔
      (db.submission? id).map (·.judged (finalVerdicate verdicates)
        (exectionTime (judgements verdicates results testCases)) memory) ≠ db.submission? id ∧
      ¬((judgements verdicates results testCases).map (judgementRow id)).Subperm
        (db.resultsOf id) := by
  constructor
  · rintro ⟨run', _, _, _, _, _, hp', h', ⟨memory', hm', hrow⟩, hrows⟩
    obtain ⟨rfl, rfl, rfl, rfl⟩ := h.unique h' hp hp'
    rw [hm] at hm'
    cases hm'
    exact ⟨hrow, hrows⟩
  · rintro ⟨hrow, hrows⟩
    exact ⟨run, _, _, _, _, _, hp, h, ⟨memory, hm, hrow⟩, hrows⟩

/-- A run, failed or not, leaves the stored state of its submission as it was or complete, unless
the insertion of the result rows was rejected and the verdict was news; and then it never does. -/
theorem failed_atomic_iff (he : e.submissionId = some id)
    (h : (judgeSubmission (some e) boxId).Eval tr out) (hs : Answers.Steps db tr db') :
    (db'.stored id = db.stored id ∨ Complete e boxId tr id db') ↔
      ¬(InsertRejected tr ∧ News e boxId tr id db) := by
  rcases eval_judgeSubmission h with ⟨r, r', err, rfl, -, -⟩ |
    ⟨run, writes, testCases, problem, results, verdicates, rows, rfl, hjudged, hwritten⟩
  · obtain rfl : db' = db := Answers.steps_eq_of_not_writes hs (by simp [Call.Writes])
    refine iff_of_true (Or.inl rfl) ?_
    rintro ⟨⟨data, err, hmem⟩, -⟩
    simp at hmem
  have hprefix : run <+: run ++ writes := List.prefix_append run writes
  have hnone : ∀ data err, (⟨.createMany data, .error err⟩ : Event Call.Res) ∉ run :=
    fun data err hmem ↦ hjudged.not_writes _ hmem trivial
  rcases hwritten.steps (hjudged.steps_writes hs) with ⟨rfl, err', hw⟩ | ⟨db₁, hupdate, hinsert⟩
  -- The verdict was rejected, and the rows were never sent.
  · refine iff_of_true (Or.inl rfl) ?_
    rintro ⟨⟨data, err, hmem⟩, -⟩
    simp [hw, hnone] at hmem
  obtain ⟨hverdict, -⟩ := recorded_of_updateSubmission he hupdate
  obtain ⟨id', memory, hid, hmemory, -, rfl⟩ := updateSubmission_eq_some_iff.mp hupdate
  obtain rfl : id' = id := Option.some.inj (hid.symm.trans he)
  rw [hjudged.complete_iff hprefix, hjudged.news_iff hprefix hmemory]
  rcases hinsert with ⟨rfl, err', hw⟩ | ⟨hinsert, hno⟩
  -- The rows were rejected behind the new verdict: the state is as it was if the row held all of
  -- it, and complete if the rows were there.
  · have hrejected : InsertRejected (run ++ writes) := ⟨rows, err', by simp [hw]⟩
    have hstored : (db.modifySubmission id' (finalVerdicate verdicates)
        (exectionTime (judgements verdicates results testCases)) memory).stored id' = db.stored id'
        ↔ (db.submission? id').map (·.judged (finalVerdicate verdicates)
          (exectionTime (judgements verdicates results testCases)) memory)
            = db.submission? id' := by
      rw [stored, submission?_modifySubmission, if_pos rfl, stored, Prod.mk.injEq]
      exact and_iff_left rfl
    rw [hstored, resultsOf_modifySubmission]
    tauto
  -- Nothing was rejected, and both writes are in the database.
  · refine iff_of_true (Or.inr ⟨?_, ?_⟩) ?_
    · rw [submission?_of_createMany hinsert]
      exact hverdict
    · rw [resultsOf_createMany hjudged hid hinsert]
      exact (List.sublist_append_right _ _).subperm
    · rintro ⟨⟨data, err', hmem⟩, -⟩
      rcases List.mem_append.mp hmem with hmem | hmem
      · exact hnone data err' hmem
      · exact hno data err' hmem

/-! ## A verdict without its rows -/

/-- One problem, and one submission that waits to be judged. -/
def pendingDatabase : Database where
  problems := [sumProblem]
  submissions := [⟨1, 7, 3, "cpp", "int main(", "PENDING", none, none, 0⟩]
  results := []
  nextId := 2
  nodup_problems := by decide
  nodup_submissions := by decide
  lt_nextId := by decide
  problem_mem := by decide

/-- A test of the problem. -/
def sumTest : TestCase := ⟨"1", some "1 2", some "3"⟩

/-- A run whose box cannot be initialised and whose second write is rejected. -/
def tornTrace : List (Event Call.Res) :=
  [⟨.getTestCases (some 7), .ok [sumTest]⟩, ⟨.findProblem (some 7), .ok (some sumProblem)⟩,
    ⟨.exec (.init 0), .error "Error: Command failed"⟩, ⟨.now, (1000 : ℤ)⟩,
    ⟨.updateSubmission (some 1) "SE" 0 0, .ok ()⟩,
    ⟨.createMany [⟨some 1, "1", none, none, "SE", 1000⟩], .error "Error: Connection terminated"⟩]

/-- What it leaves. -/
def tornDatabase : Database := pendingDatabase.modifySubmission 1 "SE" 0 0

theorem eval_tornTrace : (judgeSubmission (some uncompilable) 0).Eval tornTrace
    (.error "Error: Connection terminated") := by
  have ht : 0 = exectionTime (judgements ["SE"] (buildErrorResults [sumTest]
    "Failed to initialize sandbox" .SE) [sumTest]) := by decide +kernel
  have hm : 0 = memoryUsed (judgements ["SE"] (buildErrorResults [sumTest]
    "Failed to initialize sandbox" .SE) [sumTest]) := by decide +kernel
  refine ⟨.ok [sumTest], _, rfl, .ok (some sumProblem), _, rfl,
    .error "Error: Command failed", _, rfl, (1000 : ℤ), _, rfl, .ok (), [_],
    congrArg (· :: [_]) (updateEvent_congr ht hm _), .error "Error: Connection terminated",
    _, rfl, rfl, rfl⟩

theorem steps_tornTrace : Answers.Steps pendingDatabase tornTrace tornDatabase :=
  ⟨_, rfl, _, ⟨rfl, rfl⟩, _, rfl, _, rfl, _, rfl, _, rfl, rfl⟩

/-- The iff at that run: the insertion was rejected, and the verdict was news. -/
theorem failed_atomic_iff_tornTrace :
    (tornDatabase.stored 1 = pendingDatabase.stored 1 ∨
      Complete uncompilable 0 tornTrace 1 tornDatabase) ↔
    ¬(InsertRejected tornTrace ∧ News uncompilable 0 tornTrace 1 pendingDatabase) :=
  failed_atomic_iff rfl eval_tornTrace steps_tornTrace

/-- A failed run leaves a submission with a final verdict and no result row. -/
theorem torn_submission :
    (judgeSubmission (some uncompilable) 0).Eval tornTrace (.error "Error: Connection terminated") ∧
      Answers.Steps pendingDatabase tornTrace tornDatabase ∧
      ¬(tornDatabase.stored 1 = pendingDatabase.stored 1 ∨
        Complete uncompilable 0 tornTrace 1 tornDatabase) := by
  refine ⟨eval_tornTrace, steps_tornTrace, ?_⟩
  rintro (hstored | ⟨run, testCases, _, _, _, _, hp, hjudged, -, hrows⟩)
  · exact absurd (congrArg Prod.fst hstored) (by decide)
  · have hnil : tornDatabase.resultsOf 1 = [] := rfl
    rw [hnil, List.subperm_nil, List.map_eq_nil_iff, hjudged.judgements_eq_nil_iff] at hrows
    obtain ⟨batch, clock, rfl, -, -⟩ := hjudged.trace
    have hhead := (List.cons_prefix_cons.mp hp).1
    rw [hrows] at hhead
    simp at hhead

end JudgeIt
