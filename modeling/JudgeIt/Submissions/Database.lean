import JudgeIt.Async.Environment
import JudgeIt.Judge.Submission

/-!
# The database

The three tables submissions live in, as far as the code reads and writes them: problems,
submissions, and the result rows. A database carries what its schema enforces, the primary keys and
the foreign key of a submission, so no write can break them.

`Database.Answers` answers the calls of the judge from a database. It lets any call reject at any
time; a rejected write changes nothing. It says nothing about the calls that do not concern the
database.
-/

namespace JudgeIt

open Async

/-- A row of `SubmissionResult`, without its number. -/
structure ResultRow where
  submissionId : ℤ
  testcaseName : JsString
  verdict : JsString
  executionTime : Option ℚ
  memoryUsed : Option ℤ
  createdAt : ℤ
  deriving DecidableEq

/-- The tables. -/
structure Database where
  problems : List Problem
  submissions : List Submission
  results : List ResultRow
  /-- The next value of the autoincrement of `Submission.id`. -/
  nextId : ℤ
  nodup_problems : (problems.map (·.id)).Nodup
  nodup_submissions : (submissions.map (·.id)).Nodup
  lt_nextId : ∀ s ∈ submissions, s.id < nextId
  problem_mem : ∀ s ∈ submissions, s.problem_id ∈ problems.map (·.id)

/-- The row with a verdict stored in it. -/
def Submission.judged (s : Submission) (verdict : JsString) (executionTime : ℚ)
    (memoryUsed : ℤ) : Submission :=
  { s with
    verdicate := verdict
    execution_time := some executionTime
    memory_user := some memoryUsed }

/-- The row stored for an entry of `createMany`. -/
def SubmissionResult.toRow (r : SubmissionResult) : Option ResultRow :=
  r.submissionId.map fun id ↦
    ⟨id, r.testcaseName, r.verdict, r.executionTime, r.memoryUsed, r.createdAt⟩

/-- What an `Int` column stores of a number: nothing but a 32-bit integer. -/
def intColumn (q : ℚ) : Option ℤ :=
  if q.den = 1 ∧ -2 ^ 31 ≤ q.num ∧ q.num < 2 ^ 31 then some q.num else none

namespace Database

variable (db : Database)

/-- The row with the given id, when it exists. -/
def submission? (id : ℤ) : Option Submission := db.submissions.find? (·.id = id)

/-- The result rows of a submission, without their times. -/
def resultsOf (id : ℤ) : List ResultRow :=
  (db.results.map fun row ↦ { row with createdAt := 0 }).filter (·.submissionId = id)

/-- `prisma.problem.findUnique({ where: { id } })`. -/
def findProblem (id : Option ℤ) : Option Problem := db.problems.find? fun p ↦ some p.id = id

/-- `prisma.submission.create`, at the given time: the stored row, and the table with it. Refused
for data that is no integer and for a problem that does not exist. -/
def createSubmission (data : SubmissionData) (createdAt : ℤ) : Option (Submission × Database) :=
  match data.user_id, data.problem_id with
  | some user_id, some problem_id =>
    if hp : problem_id ∈ db.problems.map (·.id) then
      let row : Submission :=
        { id := db.nextId
          problem_id := problem_id
          user_id := user_id
          language := data.language
          source_code := data.source_code
          verdicate := "PENDING"
          execution_time := none
          memory_user := none
          created_at := createdAt }
      some (row, { db with
        submissions := db.submissions ++ [row]
        nextId := db.nextId + 1
        nodup_submissions := by
          rw [List.map_append, List.nodup_append]
          refine ⟨db.nodup_submissions, List.nodup_singleton _, ?_⟩
          rintro id hid id' hid' rfl
          obtain ⟨s, hs, rfl⟩ := List.mem_map.mp hid
          exact (db.lt_nextId s hs).ne (List.mem_singleton.mp hid')
        lt_nextId := by
          refine List.forall_mem_append.mpr ⟨fun s hs ↦ ?_, List.forall_mem_singleton.mpr ?_⟩
          · exact (db.lt_nextId s hs).trans (lt_add_one _)
          · exact lt_add_one db.nextId
        problem_mem := List.forall_mem_append.mpr
          ⟨db.problem_mem, List.forall_mem_singleton.mpr hp⟩ })
    else none
  | _, _ => none

/-- Store a verdict in the rows with the given id. -/
def modifySubmission (id : ℤ) (verdict : JsString) (executionTime : ℚ) (memoryUsed : ℤ) :
    Database :=
  let update (s : Submission) : Submission :=
    if s.id = id then s.judged verdict executionTime memoryUsed else s
  have hid : ∀ s, (update s).id = s.id := fun s ↦ by
    simp only [update]
    split <;> rfl
  have hproblem : ∀ s, (update s).problem_id = s.problem_id := fun s ↦ by
    simp only [update]
    split <;> rfl
  { db with
    submissions := db.submissions.map update
    nodup_submissions := by
      rw [List.map_map, show (fun s : Submission ↦ s.id) ∘ update = fun s ↦ s.id from funext hid]
      exact db.nodup_submissions
    lt_nextId := List.forall_mem_map.mpr fun s hs ↦ hid s ▸ db.lt_nextId s hs
    problem_mem := List.forall_mem_map.mpr fun s hs ↦ hproblem s ▸ db.problem_mem s hs }

/-- `prisma.submission.update`: refused without such a row, and when the memory is no `Int`. -/
def updateSubmission (submissionId : Option ℤ) (verdict : JsString)
    (executionTime memoryUsed : ℚ) : Option Database :=
  match submissionId, intColumn memoryUsed with
  | some id, some memory =>
    if (db.submission? id).isSome then some (db.modifySubmission id verdict executionTime memory)
    else none
  | _, _ => none

/-- An entry of `createMany` is refused when it names no submission or its memory is no `Int`. -/
def accepts (r : SubmissionResult) : Bool :=
  (r.submissionId.any fun id ↦ (db.submission? id).isSome) &&
    r.memoryUsed.all fun m ↦ (intColumn m).isSome

/-- `prisma.submissionResult.createMany`: all rows or none. -/
def createMany (data : List SubmissionResult) : Option Database :=
  if data.all db.accepts then
    some { db with results := db.results ++ data.filterMap SubmissionResult.toRow }
  else none

/-- The environment in which any call may reject. A rejected write changes nothing. -/
def Answers : Env Database Call.Res := fun db op r db' ↦
  match op, r with
  | .createSubmission data, .ok row =>
    db.createSubmission data row.created_at = some (row, db')
  | .findProblem id, .ok problem => db' = db ∧ problem = db.findProblem id
  | .updateSubmission id v t m, .ok _ => db.updateSubmission id v t m = some db'
  | .createMany data, .ok _ => db.createMany data = some db'
  | _, _ => db' = db

/-! ## What the writes do -/

variable {db} {db' : Database} {id j : ℤ} {v : JsString} {t m : ℚ} {memory : ℤ}
  {data : List SubmissionResult}

theorem submission?_modifySubmission : (db.modifySubmission id v t memory).submission? j
    = if j = id then (db.submission? j).map (·.judged v t memory) else db.submission? j := by
  have hid : ∀ s : Submission, (if s.id = id then s.judged v t memory else s).id = s.id := by
    intro s
    split <;> rfl
  simp only [submission?, modifySubmission, List.find?_map, Function.comp_def, hid]
  cases hf : db.submissions.find? (·.id = j) with
  | none => simp
  | some s =>
    have hs : s.id = j := by simpa using List.find?_some hf
    rw [Option.map_some, hs]
    split <;> rfl

/-- Storing a verdict overwrites the one before. -/
theorem verdicate_modifySubmission :
    ((db.modifySubmission id v t memory).submission? id).map (·.verdicate)
      = (db.submission? id).map fun _ ↦ v := by
  rw [submission?_modifySubmission, if_pos rfl, Option.map_map]
  rfl

@[simp] theorem resultsOf_modifySubmission :
    (db.modifySubmission id v t memory).resultsOf j = db.resultsOf j := rfl

theorem updateSubmission_eq_some_iff {submissionId : Option ℤ} :
    db.updateSubmission submissionId v t m = some db' ↔ ∃ id memory, submissionId = some id ∧
      intColumn m = some memory ∧ (db.submission? id).isSome ∧
      db' = db.modifySubmission id v t memory := by
  unfold updateSubmission
  cases submissionId with
  | none => simp
  | some id =>
    cases hm : intColumn m with
    | none => simp
    | some memory =>
      simp only [Option.some.injEq]
      constructor
      · intro h
        split at h
        · next hs => exact ⟨id, memory, rfl, rfl, hs, (Option.some.inj h).symm⟩
        · cases h
      · rintro ⟨_, _, rfl, rfl, hs, rfl⟩
        rw [if_pos hs]

theorem of_createSubmission {new : SubmissionData} {createdAt : ℤ} {row : Submission}
    (h : db.createSubmission new createdAt = some (row, db')) :
    row.id = db.nextId ∧ some row.user_id = new.user_id ∧ some row.problem_id = new.problem_id ∧
      row.language = new.language ∧ row.source_code = new.source_code ∧
      row.verdicate = "PENDING" ∧ db'.submissions = db.submissions ++ [row] ∧
      db'.problems = db.problems := by
  unfold createSubmission at h
  cases hu : new.user_id with
  | none => simp [hu] at h
  | some user_id =>
    cases hp : new.problem_id with
    | none => simp [hu, hp] at h
    | some problem_id =>
      simp only [hu, hp] at h
      split at h
      · obtain ⟨rfl, rfl⟩ := Prod.mk.inj (Option.some.inj h)
        exact ⟨rfl, rfl, rfl, rfl, rfl, rfl, rfl, rfl⟩
      · cases h

theorem createMany_eq_some_iff : db.createMany data = some db' ↔
    (∀ r ∈ data, db.accepts r) ∧
      db' = { db with results := db.results ++ data.filterMap SubmissionResult.toRow } := by
  rw [createMany]
  split
  · next h =>
    rw [Option.some.injEq, eq_comm]
    exact ⟨fun heq ↦ ⟨List.all_eq_true.mp h, heq⟩, And.right⟩
  · next h =>
    simp only [reduceCtorEq, false_iff, not_and]
    exact fun hall ↦ absurd (List.all_eq_true.mpr hall) h

theorem submissions_of_createMany (h : db.createMany data = some db') :
    db'.submissions = db.submissions := by
  obtain ⟨-, rfl⟩ := createMany_eq_some_iff.mp h
  rfl

theorem submission?_of_createMany (h : db.createMany data = some db') :
    db'.submission? j = db.submission? j := by
  rw [submission?, submissions_of_createMany h, submission?]

/-- **What an answered call does to the tables**: nothing, or one of the three writes. -/
theorem Answers.cases {op : Call} {r : op.Res} (h : Answers db op r db') :
    (db' = db ∧ ∀ data row, (⟨op, r⟩ : Event Call.Res) ≠ ⟨.createSubmission data, .ok row⟩) ∨
    (∃ data row, (⟨op, r⟩ : Event Call.Res) = ⟨.createSubmission data, .ok row⟩ ∧
      db.createSubmission data row.created_at = some (row, db')) ∨
    (∃ id v t m, (⟨op, r⟩ : Event Call.Res) = ⟨.updateSubmission id v t m, .ok ()⟩ ∧
      db.updateSubmission id v t m = some db') ∨
    ∃ data, (⟨op, r⟩ : Event Call.Res) = ⟨.createMany data, .ok ()⟩ ∧
      db.createMany data = some db' := by
  cases op with
  | createSubmission data =>
    cases r with
    | error e => exact Or.inl ⟨h, by simp⟩
    | ok row => exact Or.inr (Or.inl ⟨data, row, rfl, h⟩)
  | updateSubmission id v t m =>
    cases r with
    | error e => exact Or.inl ⟨h, by simp⟩
    | ok _ => exact Or.inr (Or.inr (Or.inl ⟨id, v, t, m, rfl, h⟩))
  | createMany data =>
    cases r with
    | error e => exact Or.inl ⟨h, by simp⟩
    | ok _ => exact Or.inr (Or.inr (Or.inr ⟨data, rfl, h⟩))
  | findProblem id =>
    cases r with
    | error e => exact Or.inl ⟨h, by simp⟩
    | ok _ => exact Or.inl ⟨h.1, by simp⟩
  | _ => exact Or.inl ⟨h, by simp⟩

end Database

end JudgeIt
