import JudgeIt.Submissions.Platform

/-!
# Solved problems

The two queries about solved problems select the rows with verdict `ACCEPTED`, join them with their
problems and keep one row per problem. As queries they are right: `getSolvedProblems` lists each
problem with such a row once, and the count is the length of the list. But the judge writes `ACC`,
and no final verdict is `ACCEPTED`, so over the rows the platform really stores both queries are
empty, and they are right only about users who have solved nothing.
-/

namespace JudgeIt

open Async

/-- A row of `getSolvedProblems`. -/
structure SolvedProblemResult where
  id : ℤ
  title : JsString
  difficulty : JsString
  execution_time : Option ℚ
  memory_user : Option ℤ
  solved_at : ℤ
  deriving DecidableEq

/-! ## The queries -/

/-- `ORDER BY p.id, s.created_at DESC`. -/
def SolvedOrder (a b : Problem × Submission) : Prop :=
  a.1.id < b.1.id ∨ a.1.id = b.1.id ∧ b.2.created_at ≤ a.2.created_at

instance : DecidableRel SolvedOrder := fun _ _ ↦ inferInstanceAs (Decidable (_ ∨ _ ∧ _))

instance solvedOrder_total : Std.Total SolvedOrder where
  total a b := by
    simp only [SolvedOrder]
    omega

instance solvedOrder_trans : IsTrans (Problem × Submission) SolvedOrder where
  trans a b c hab hbc := by
    simp only [SolvedOrder] at *
    omega

namespace Database

variable (db : Database) (userId : ℤ)

/-- The submissions of the user that have the verdict `ACCEPTED`. -/
def acceptedSubmissions : List Submission :=
  db.submissions.filter fun s ↦ s.user_id = userId ∧ s.verdicate = JsString.ofString "ACCEPTED"

/-- These submissions, joined with their problems. -/
def solvedRows : List (Problem × Submission) :=
  db.problems.flatMap fun p ↦
    ((db.acceptedSubmissions userId).filter (·.problem_id = p.id)).map fun s ↦ (p, s)

/-- `getSolvedProblems(userId)`. -/
def getSolvedProblems : List SolvedProblemResult :=
  (((db.solvedRows userId).insertionSort SolvedOrder).distinctOn (·.1.id)).map fun r ↦
    { id := r.1.id
      title := r.1.title
      difficulty := r.1.difficulty
      execution_time := r.2.execution_time
      memory_user := r.2.memory_user
      solved_at := r.2.created_at }

/-- `getsolvedProblemsCount(userId)`: the number of groups. -/
def getsolvedProblemsCount : ℕ :=
  ((db.acceptedSubmissions userId).map (·.problem_id)).dedup.length

/-! ## The queries are right about `ACCEPTED` -/

variable {db userId}

theorem map_id_getSolvedProblems : (db.getSolvedProblems userId).map (·.id)
    = (((db.solvedRows userId).insertionSort SolvedOrder).distinctOn (·.1.id)).map (·.1.id) := by
  rw [getSolvedProblems, List.map_map]
  rfl

theorem nodup_getSolvedProblems : ((db.getSolvedProblems userId).map (·.id)).Nodup := by
  rw [map_id_getSolvedProblems]
  exact List.nodup_map_distinctOn _ _

/-- A problem is listed exactly when the user has an `ACCEPTED` submission for it. -/
theorem mem_getSolvedProblems {problemId : ℤ} :
    problemId ∈ (db.getSolvedProblems userId).map (·.id) ↔
      problemId ∈ (db.acceptedSubmissions userId).map (·.problem_id) := by
  rw [map_id_getSolvedProblems, List.mem_map_distinctOn]
  simp only [List.mem_map, List.mem_insertionSort, solvedRows, List.mem_flatMap, List.mem_filter,
    decide_eq_true_eq]
  constructor
  · rintro ⟨_, ⟨problem, -, s, ⟨hs, hp⟩, rfl⟩, rfl⟩
    exact ⟨s, hs, hp⟩
  · rintro ⟨s, hs, rfl⟩
    obtain ⟨problem, hproblem, hp⟩ :=
      List.mem_map.mp (db.problem_mem s (List.mem_of_mem_filter hs))
    exact ⟨(problem, s), ⟨problem, hproblem, s, ⟨hs, hp.symm⟩, rfl⟩, hp⟩

theorem map_id_getSolvedProblems_perm (db : Database) (userId : ℤ) :
    ((db.getSolvedProblems userId).map (·.id)).Perm
      ((db.acceptedSubmissions userId).map (·.problem_id)).dedup := by
  refine (List.perm_ext_iff_of_nodup nodup_getSolvedProblems (List.nodup_dedup _)).mpr ?_
  intro problemId
  rw [mem_getSolvedProblems, List.mem_dedup]

theorem getsolvedProblemsCount_eq :
    db.getsolvedProblemsCount userId = (db.getSolvedProblems userId).length := by
  rw [getsolvedProblemsCount, ← (map_id_getSolvedProblems_perm db userId).length_eq,
    List.length_map]

theorem getSolvedProblems_increasing (db : Database) (userId : ℤ) :
    (db.getSolvedProblems userId).Pairwise fun r r' ↦ r.id < r'.id := by
  have hsorted := (List.pairwise_insertionSort SolvedOrder (db.solvedRows userId)).sublist
    (List.distinctOn_sublist (·.1.id) _)
  have hdistinct := List.pairwise_map.mp
    (List.nodup_map_distinctOn (·.1.id) ((db.solvedRows userId).insertionSort SolvedOrder))
  refine List.pairwise_map.mpr ((hsorted.and hdistinct).imp ?_)
  rintro a b ⟨hab, hne⟩
  exact hab.resolve_right fun h ↦ hne h.1

theorem isGreatest_solved_at {r : SolvedProblemResult} (hr : r ∈ db.getSolvedProblems userId) :
    IsGreatest {c | ∃ s ∈ db.acceptedSubmissions userId, s.problem_id = r.id ∧ s.created_at = c}
      r.solved_at := by
  obtain ⟨⟨p, s⟩, hentry, rfl⟩ := List.mem_map.mp hr
  have hmem : ∀ x ∈ (db.solvedRows userId).insertionSort SolvedOrder,
      x.1 ∈ db.problems ∧ x.2 ∈ db.acceptedSubmissions userId ∧ x.2.problem_id = x.1.id := by
    intro x hx
    obtain ⟨p, hp, hx⟩ := List.mem_flatMap.mp ((List.mem_insertionSort _).mp hx)
    obtain ⟨s, hs, rfl⟩ := List.mem_map.mp hx
    obtain ⟨hs, hid⟩ := List.mem_filter.mp hs
    exact ⟨hp, hs, of_decide_eq_true hid⟩
  obtain ⟨hp, hs, hid⟩ := hmem _ ((List.distinctOn_sublist _ _).subset hentry)
  refine ⟨⟨s, hs, hid, rfl⟩, ?_⟩
  rintro c ⟨s', hs', hid', rfl⟩
  -- the join pairs the other submission with the problem too, and the query sorts it behind
  have hjoined : (p, s') ∈ (db.solvedRows userId).insertionSort SolvedOrder := by
    refine (List.mem_insertionSort _).mpr (List.mem_flatMap.mpr ⟨p, hp, ?_⟩)
    exact List.mem_map_of_mem (List.mem_filter.mpr ⟨hs', decide_eq_true hid'⟩)
  rcases List.eq_or_rel_of_mem_distinctOn (List.pairwise_insertionSort SolvedOrder _) hentry
    hjoined rfl with heq | hlt | ⟨-, hle⟩
  · rw [(Prod.mk.inj heq).2]
  · exact absurd hlt (lt_irrefl _)
  · exact hle

end Database

/-! ## The verdicts that are stored -/

variable {s₀ : Stores} {p : Pool Request Call.Res JsString Unit Stores}
  {l : List (Pool Request Call.Res JsString Unit Stores × Pool.Action Request Call.Res)}

/-- A row is pending or holds a final verdict. -/
def FinalOrPending (db : Database) : Prop :=
  ∀ s ∈ db.submissions, s.verdicate = JsString.ofString "PENDING" ∨ s.verdicate ∈ finalVerdicts

theorem storesFinal_of_eval (request : Request) (tr : List (Event Call.Res))
    (out : Except JsString Unit) (h : (serve request).Eval tr out) :
    ∀ x ∈ tr, x.1.StoresFinal := by
  cases request with
  | submit dto userId =>
    obtain ⟨out', h, -⟩ := eval_bind_unit h
    rcases eval_submit h with ⟨_, rfl⟩ | ⟨_, _, rfl⟩ | ⟨_, _, _, _, rfl, -⟩ <;>
      simp [Call.StoresFinal]
  | judge event boxId =>
    obtain ⟨out', h, -⟩ := eval_bind_unit h
    exact fun x hx ↦ (byJudge_of_mem h x hx).storesFinal

theorem Database.Answers.finalOrPending {db db' : Database} {op : Call} {r : op.Res}
    (h : Database.Answers db op r db') (hop : op.StoresFinal) (hdb : FinalOrPending db) :
    FinalOrPending db' := by
  rcases h.cases with ⟨rfl, -⟩ | ⟨data, row, hx, hcreate⟩ | ⟨id, v, t, m, hx, hupdate⟩ |
    ⟨data, -, hinsert⟩
  · exact hdb
  · obtain ⟨-, -, -, -, -, hv, hsub, -⟩ := Database.of_createSubmission hcreate
    rw [FinalOrPending, hsub]
    exact List.forall_mem_append.mpr ⟨hdb, List.forall_mem_singleton.mpr (Or.inl hv)⟩
  · obtain ⟨id, memory, -, -, -, rfl⟩ := Database.updateSubmission_eq_some_iff.mp hupdate
    cases hx
    refine List.forall_mem_map.mpr fun row hrow ↦ ?_
    split
    · exact Or.inr hop
    · exact hdb row hrow
  · rw [FinalOrPending, Database.submissions_of_createMany hinsert]
    exact hdb

/-- Only final verdicts are ever stored. -/
theorem finalOrPending (hrun : PlatformRun s₀ l p) (h₀ : s₀.Fresh) :
    FinalOrPending p.shared.database :=
  Pool.shared_invariant (I := fun s : Stores ↦ FinalOrPending s.database) hrun
    (by simp [FinalOrPending, h₀.submissions]) storesFinal_of_eval
    fun _ _ _ _ hx hE hs ↦ hE.1.finalOrPending hx hs

/-! ## What the user gets -/

/-- The judge recorded a submission of the user for the problem as accepted. -/
def RecordedAccepted (db : Database) (userId problemId : ℤ) : Prop :=
  ∃ s ∈ db.submissions, s.user_id = userId ∧ s.problem_id = problemId ∧
    s.verdicate = JsString.ofString "ACC"

/-- The queries answer with what the user solved: each problem once, no other, and their number. -/
structure ListsSolved (db : Database) (userId : ℤ) : Prop where
  once : ((db.getSolvedProblems userId).map (·.id)).Nodup
  solved : ∀ problemId,
    problemId ∈ (db.getSolvedProblems userId).map (·.id) ↔ RecordedAccepted db userId problemId
  count : db.getsolvedProblemsCount userId = (db.getSolvedProblems userId).length

/-- On every platform the queries are right about a user exactly when the judge recorded none of
the user's submissions as accepted. -/
theorem listsSolved_iff (hrun : PlatformRun s₀ l p) (h₀ : s₀.Fresh) (userId : ℤ) :
    ListsSolved p.shared.database userId ↔
      ∀ problemId, ¬RecordedAccepted p.shared.database userId problemId := by
  have hnone : p.shared.database.acceptedSubmissions userId = [] := by
    refine List.filter_eq_nil_iff.mpr fun s hs hacc ↦ ?_
    have hv : s.verdicate = JsString.ofString "ACCEPTED" := (of_decide_eq_true hacc).2
    rcases finalOrPending hrun h₀ s hs with h | h <;> rw [hv] at h
    · exact absurd h (by decide)
    · exact absurd h (by decide)
  have hnot : ∀ problemId, problemId ∉ (p.shared.database.getSolvedProblems userId).map (·.id) := by
    intro problemId hmem
    rw [Database.mem_getSolvedProblems, hnone] at hmem
    cases hmem
  constructor
  · intro h problemId hacc
    exact hnot problemId ((h.solved problemId).mpr hacc)
  · intro h
    exact ⟨Database.nodup_getSolvedProblems, fun problemId ↦ iff_of_false (hnot problemId)
      (h problemId), Database.getsolvedProblemsCount_eq⟩

/-! ## A solved problem that is not listed -/

/-- The only test of the problem. -/
def printTest : TestCase := ⟨"1", none, some "1"⟩

/-- What the sandbox does with the solution. -/
def printBatch : List (Event Call.Res) :=
  [⟨.exec (.init 0), .ok "/box/0"⟩,
    ⟨.writeFile ⟨"/box/0", "solution.py"⟩ "print(1)", .ok ()⟩, ⟨.now, (1000 : ℤ)⟩,
    ⟨.exec (.run (runCommand 0 python "solution.py" printTest
      (mergeConfig (judgeConfig ⟨256, 2⟩)) ⟨0, 1000⟩)), .ok ""⟩,
    ⟨.exec (.cat ⟨"/box/0", "output.txt"⟩), .ok "1\n"⟩,
    ⟨.exec (.cat ⟨"/box/0", "error.txt"⟩), .ok ""⟩,
    ⟨.exec (.catMeta ⟨0, 1000⟩), .ok "time:0.010\nmax-rss:1024\nexitcode:0\n"⟩,
    ⟨.exec (.rmMeta ⟨0, 1000⟩), .ok ""⟩, ⟨.exec (.cleanup 0), .ok ""⟩]

/-- What is reported of the test. -/
def printResult : ExecutionResult :=
  { testCaseName := some "1", success := true, output := some "1", time := some (1 / 100)
    wallTime := some 0, memory := some 1024, exitCode := some 0, status := .OK }

/-- The judging of the solution up to its first write. -/
def printRun : List (Event Call.Res) :=
  ⟨.getTestCases (some 7), .ok [printTest]⟩ :: ⟨.findProblem (some 7), .ok (some printProblem)⟩ ::
    (printBatch ++ [⟨.now, (2000 : ℤ)⟩])

/-- Its writes. -/
def printWrites : List (Event Call.Res) :=
  [⟨.updateSubmission (some 1) "ACC" 10 1, .ok ()⟩,
    ⟨.createMany [⟨some 1, "1", some (1 / 100), some 1024, "ACC", 2000⟩], .ok ()⟩,
    ⟨.getTime (some "2025-01-01T00:00:00.000Z"), some (0 : ℤ)⟩, ⟨.now, (2000 : ℤ)⟩,
    ⟨.observe (some ((2000 - 0 : ℤ) / 1000)), .ok ()⟩]

theorem eval_printBatch : (executeBatch 0 (some "print(1)") (some "python") [printTest]
    (judgeConfig ⟨256, 2⟩)).Eval printBatch (.ok [printResult]) := by
  have hresult : { buildResultFromMeta (parseMetaFile "time:0.010\nmax-rss:1024\nexitcode:0\n")
      "1\n" "" with testCaseName := some "1" } = printResult := by decide +kernel
  refine ⟨_, _, rfl, _, _, rfl, _, _, rfl, _, _, rfl, _, _, rfl, _, _, rfl, ?_⟩
  refine ⟨_, _, rfl, _, _, rfl, _, _, rfl, rfl, ?_⟩
  exact congrArg (fun r ↦ Except.ok [r]) hresult.symm

theorem eval_printRun : (runSubmission printEvent 0).Eval printRun
    (.ok (["ACC"], judgements ["ACC"] [printResult] [printTest],
      [⟨some 1, "1", some (1 / 100), some 1024, "ACC", 2000⟩])) :=
  eval_runSubmission_of eval_printBatch (by decide +kernel) ⟨(2000 : ℤ), _, rfl, rfl, rfl⟩

theorem eval_print :
    (judgeSubmission (some printEvent) 0).Eval (printRun ++ printWrites) (.ok ["ACC"]) := by
  have ht : 10 = exectionTime (judgements ["ACC"] [printResult] [printTest]) := by decide +kernel
  have hm : 1 = memoryUsed (judgements ["ACC"] [printResult] [printTest]) := by decide +kernel
  refine Program.eval_bind_iff.mpr (Or.inr ⟨_, _, _, rfl, eval_printRun, ?_⟩)
  exact ⟨.ok (), _, congrArg (· :: _) (updateEvent_congr ht hm _), .ok (), _, rfl, some (0 : ℤ), _,
    rfl, (2000 : ℤ), _, rfl, .ok (), _, rfl, rfl, rfl⟩

/-- The database after that. -/
def solvedDatabase : Database :=
  { printDatabase.modifySubmission 1 "ACC" 10 1 with
    results := [⟨1, "1", "ACC", some (1 / 100), some 1024, 2000⟩] }

/-- Submitting the solution. -/
def printSubmitted : List (Event Call.Res) :=
  [⟨.findProblem (some 7), .ok (some printProblem)⟩,
    ⟨.createSubmission (submissionData printSolution (some 3)), .ok printRow⟩,
    ⟨.timestamp, JsString.ofString "2025-01-01T00:00:00.000Z"⟩, ⟨.send printEvent, .acked⟩]

/-- The pool in which the solution was submitted and judged. -/
def solvedPool : Pool Request Call.Res JsString Unit Stores :=
  ⟨[⟨.submit printSolution "3", printSubmitted, .pure ()⟩,
    ⟨.judge (some printEvent) 0, printRun ++ printWrites, .pure ()⟩],
    ⟨solvedDatabase, [printEvent]⟩⟩

theorem run_solvedPool : ∃ l, PlatformRun newPlatform l solvedPool := by
  have hsubmit : (serve (.submit printSolution "3")).Eval printSubmitted (.ok ()) :=
    ⟨_, _, rfl, _, _, rfl, _, _, rfl, _, _, rfl, rfl, rfl⟩
  have hjudge : (serve (.judge (some printEvent) 0)).Eval (printRun ++ printWrites) (.ok ()) :=
    Program.eval_bind_iff.mpr (Or.inr ⟨_, _, [], (List.append_nil _).symm, eval_print, rfl, rfl⟩)
  have hsubmitted : Stores.Answers.Steps newPlatform printSubmitted
      ⟨printDatabase, [printEvent]⟩ :=
    ⟨_, ⟨⟨rfl, rfl⟩, rfl⟩, ⟨printDatabase, []⟩, ⟨rfl, rfl⟩, _, ⟨rfl, rfl⟩,
      ⟨printDatabase, [printEvent]⟩, ⟨rfl, rfl⟩, rfl⟩
  have hrunning : Stores.Answers.Steps ⟨printDatabase, [printEvent]⟩ printRun
      ⟨printDatabase, [printEvent]⟩ :=
    ⟨_, ⟨rfl, rfl⟩, _, ⟨⟨rfl, rfl⟩, rfl⟩, _, ⟨rfl, rfl⟩, _, ⟨rfl, rfl⟩, _, ⟨rfl, rfl⟩, _,
    ⟨rfl, rfl⟩,
      _, ⟨rfl, rfl⟩, _, ⟨rfl, rfl⟩, _, ⟨rfl, rfl⟩, _, ⟨rfl, rfl⟩, _, ⟨rfl, rfl⟩, _, ⟨rfl, rfl⟩, rfl⟩
  have hwriting : Stores.Answers.Steps ⟨printDatabase, [printEvent]⟩ printWrites
      ⟨solvedDatabase, [printEvent]⟩ :=
    ⟨⟨printDatabase.modifySubmission 1 "ACC" 10 1, [printEvent]⟩, ⟨rfl, rfl⟩,
      ⟨solvedDatabase, [printEvent]⟩, ⟨rfl, rfl⟩, _, ⟨rfl, rfl⟩, _, ⟨rfl, rfl⟩, _, ⟨rfl, rfl⟩, rfl⟩
  obtain ⟨l, hrun⟩ := Pool.exists_run_serve .nil hsubmit hsubmitted
  obtain ⟨l', hrun'⟩ := Pool.exists_run_serve hrun hjudge
    (Env.steps_append.mpr ⟨_, hrunning, hwriting⟩)
  exact ⟨_, hrun'⟩

/-- The iff applies to that run. -/
theorem listsSolved_iff_solvedPool : ∃ l, PlatformRun newPlatform l solvedPool ∧
    (ListsSolved solvedPool.shared.database 3 ↔
      ∀ problemId, ¬RecordedAccepted solvedPool.shared.database 3 problemId) := by
  obtain ⟨l, hrun⟩ := run_solvedPool
  exact ⟨l, hrun, listsSolved_iff hrun ⟨rfl, rfl⟩ 3⟩

/-- A problem solved by a submission that passed its test is not listed. -/
theorem solved_not_listed : newPlatform.Fresh ∧ (∃ l, PlatformRun newPlatform l solvedPool) ∧
    RecordedAccepted solvedPool.shared.database 3 7 ∧
    solvedPool.shared.database.getSolvedProblems 3 = [] ∧
    ¬ListsSolved solvedPool.shared.database 3 := by
  have hacc : RecordedAccepted solvedPool.shared.database 3 7 :=
    ⟨printRow.judged "ACC" 10 1, by decide, rfl, rfl, rfl⟩
  have hnil : solvedPool.shared.database.getSolvedProblems 3 = [] := by decide
  refine ⟨⟨rfl, rfl⟩, run_solvedPool, hacc, hnil, fun h ↦ ?_⟩
  have hmem := (h.solved 7).mpr hacc
  rw [hnil] at hmem
  cases hmem

end JudgeIt
