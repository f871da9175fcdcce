import JudgeIt.Async.Pool
import JudgeIt.Judge.Submission
import JudgeIt.Submissions.Database

/-!
# The submission platform

`SubmissionsController.submit` takes a submission: it creates the row, and then sends the event to
the queue. The two are separate calls to separate stores, and any number of submissions may be taken
and judged at once. The platform is the pool of these requests over the database and the topic, with
every interleaving of their calls, and with any call rejecting at any time.

A send that rejects leaves open whether the broker has stored the message; its response says so,
though the code cannot see it.
-/

namespace JudgeIt

open Async

/-! ## Taking a submission -/

/-- What takes a submission, or a part of it. -/
abbrev Submitting := Program Call.Res JsString

/-- The data a submission is created from. -/
def submissionData (submissionDto : SubmissionDto) (userId : Option ℤ) : SubmissionData where
  user_id := userId
  problem_id := submissionDto.problemId
  language := submissionDto.language
  source_code := submissionDto.sourceCode

/-- `submissionsService.addSubmission(submissionDto, userId)`. -/
def addSubmission (submissionDto : SubmissionDto) (userId : Option ℤ) : Submitting Submission :=
  (Program.request (Call.findProblem submissionDto.problemId)).bind fun
    | .error e => .throw e
    | .ok none =>
      .throw (.ofString "NotFoundException: Problem #" ++
        (submissionDto.problemId.map JsString.ofInt).getD "NaN" ++ .ofString " not found")
    | .ok (some _) =>
      (Program.request (Call.createSubmission (submissionData submissionDto userId))).bind
        Program.ofExcept

/-- `kafkaService.sendMessage(topic, message)`. -/
def sendMessage (message : SubmissionQueuedEvent) : Submitting Unit :=
  (Program.request (Call.send message)).bind fun
    | .acked => pure ()
    | .lost e | .unacknowledged e => .throw e

/-- The event queued for a submission. -/
def submissionQueuedEvent (dto : SubmissionDto) (userId : JsString) (submission : Submission)
    (timestamp : JsString) : SubmissionQueuedEvent where
  submissionId := some submission.id
  code := some dto.sourceCode
  problemId := some submission.problem_id
  timestamp := some timestamp
  userId := some userId
  language := some submission.language

/-- `submit(dto, userId)`. -/
def submit (dto : SubmissionDto) (userId : JsString) : Submitting Submission := do
  let submission ← addSubmission dto userId.parseInt
  let timestamp ← Program.request Call.timestamp
  sendMessage (submissionQueuedEvent dto userId submission timestamp)
  pure submission

/-- Whether the promise of the send resolves. -/
def Sent.toExcept : Sent → Except JsString Unit
  | acked => .ok ()
  | lost e | unacknowledged e => .error e

variable {dto : SubmissionDto} {userId : JsString} {tr : List (Event Call.Res)}

/-- A submission is refused before a row exists, or its row is created and one message is sent. -/
theorem eval_submit {out : Except JsString Submission} (h : (submit dto userId).Eval tr out) :
    (∃ r, tr = [⟨.findProblem dto.problemId, r⟩]) ∨
    (∃ r err, tr = [⟨.findProblem dto.problemId, r⟩,
      ⟨.createSubmission (submissionData dto userId.parseInt), .error err⟩]) ∨
    ∃ r row timestamp sent, tr = [⟨.findProblem dto.problemId, r⟩,
        ⟨.createSubmission (submissionData dto userId.parseInt), .ok row⟩,
        ⟨.timestamp, timestamp⟩, ⟨.send (submissionQueuedEvent dto userId row timestamp), sent⟩] ∧
      out = sent.toExcept.map fun _ ↦ row := by
  obtain ⟨r, tr, rfl, h⟩ := h
  match r with
  | .error e => exact Or.inl ⟨_, by rw [h.1]⟩
  | .ok none => exact Or.inl ⟨_, by rw [h.1]⟩
  | .ok (some problem) =>
    obtain ⟨r, tr, rfl, h⟩ := h
    cases r with
    | error e => exact Or.inr (Or.inl ⟨_, e, by rw [h.1]⟩)
    | ok row =>
      obtain ⟨timestamp, tr, rfl, sent, tr, rfl, h⟩ := h
      have hend : tr = [] ∧ out = sent.toExcept.map fun _ ↦ row := by
        cases sent <;> exact h
      obtain ⟨rfl, rfl⟩ := hend
      exact Or.inr (Or.inr ⟨.ok (some problem), row, timestamp, sent, rfl, rfl⟩)

/-! ## The platform -/

/-- What the platform works on. -/
inductive Request
  /-- `POST /submissions/submit`. -/
  | submit (dto : SubmissionDto) (userId : JsString)
  /-- The judging of an event of the queue, in a box. -/
  | judge (event : Option SubmissionQueuedEvent) (boxId : ℕ)

/-- The program a request runs. -/
def serve : Request → Program Call.Res JsString Unit
  | .submit dto userId => (submit dto userId).bind fun _ ↦ .pure ()
  | .judge event boxId => (judgeSubmission event boxId).bind fun _ ↦ .pure ()

/-- The database and the topic. -/
structure Stores where
  database : Database
  topic : List SubmissionQueuedEvent

/-- The environment in which any call may reject. A rejected write changes nothing; a message that
is sent is stored or not. -/
def Stores.Answers : Env Stores Call.Res := fun s op r s' ↦
  Database.Answers s.database op r s'.database ∧
    match op, r with
    | .send message, .acked | .send message, .unacknowledged _ => s'.topic = s.topic ++ [message]
    | _, _ => s'.topic = s.topic

/-- The platform before anything was submitted. -/
structure Stores.Fresh (s : Stores) : Prop where
  submissions : s.database.submissions = []
  topic : s.topic = []

/-- The runs of the platform. -/
abbrev PlatformRun := Pool.Runs serve Stores.Answers

theorem eval_bind_unit {α : Type} {x : Program Call.Res JsString α} {out : Except JsString Unit}
    (h : (x.bind fun _ ↦ .pure ()).Eval tr out) :
    ∃ out', x.Eval tr out' ∧ out = out'.map fun _ ↦ () := by
  rcases Program.eval_bind_iff.mp h with ⟨e, he, rfl⟩ | ⟨a, tr₁, tr₂, rfl, h₁, rfl, rfl⟩
  · exact ⟨_, he, rfl⟩
  · exact ⟨_, by rwa [List.append_nil], rfl⟩

/-! ## What the judge calls -/

/-- The calls the judge makes: no row is created, no message sent, and only a final verdict is
stored. -/
def Call.ByJudge : Call → Prop
  | createSubmission _ | timestamp | send _ => False
  | updateSubmission _ verdict _ _ => verdict ∈ finalVerdicts
  | getTestCases _ | findProblem _ | exec _ | writeFile .. | readFile _ | now | getTime _
  | createMany _ | observe _ => True

/-- The calls that store no verdict but a final one. -/
def Call.StoresFinal : Call → Prop
  | updateSubmission _ verdict _ _ => verdict ∈ finalVerdicts
  | createSubmission _ | timestamp | send _ | getTestCases _ | findProblem _ | exec _
  | writeFile .. | readFile _ | now | getTime _ | createMany _ | observe _ => True

theorem Call.ByJudge.storesFinal {op : Call} (h : op.ByJudge) : op.StoresFinal := by
  cases op <;> first | exact trivial | exact h

theorem Call.Sandbox.byJudge {op : Call} (h : op.Sandbox) : op.ByJudge := by
  cases op <;> first | exact trivial | cases h

theorem byJudge_of_mem {event : Option SubmissionQueuedEvent} {boxId : ℕ}
    {out : Except JsString (List JsString)} (h : (judgeSubmission event boxId).Eval tr out) :
    ∀ x ∈ tr, x.1.ByJudge := by
  cases event with
  | none =>
    obtain ⟨rfl, -⟩ := h
    simp
  | some e =>
    rcases eval_judgeSubmission h with ⟨r, r', err, rfl, -, -⟩ |
      ⟨run, writes, testCases, problem, results, verdicates, rows, rfl, hjudged, hwritten⟩
    · simp [Call.ByJudge]
    obtain ⟨batch, clock, rfl, heval, hclock⟩ := hjudged.trace
    have hbatch : ∀ x ∈ batch, x.1.ByJudge := fun x hx ↦
      (executeBatch_keeps.forall_mem heval x hx).byJudge
    have hnow : ∀ x ∈ clock, x.1.ByJudge := fun x hx ↦ by rw [hclock x hx]; exact trivial
    have hfinal := hjudged.validated.finalVerdicate_mem
    have hwrites : ∀ x ∈ writes, x.1.ByJudge := by
      cases hwritten <;> simpa [Call.ByJudge] using hfinal
    intro x hx
    simp only [List.cons_append, List.mem_cons, List.mem_append] at hx
    rcases hx with rfl | rfl | (hx | hx) | hx
    · exact trivial
    · exact trivial
    · exact hbatch x hx
    · exact hnow x hx
    · exact hwrites x hx

/-! ## A platform with one problem -/

/-- A problem. -/
def printProblem : Problem := ⟨7, "Print 1", "easy", 256, 2⟩

/-- A platform that has it. -/
def newPlatform : Stores where
  database :=
    { problems := [printProblem]
      submissions := []
      results := []
      nextId := 1
      nodup_problems := by decide
      nodup_submissions := by decide
      lt_nextId := by decide
      problem_mem := by decide }
  topic := []

/-- A solution. -/
def printSolution : SubmissionDto := ⟨some 7, "print(1)", "python"⟩

/-- The row it gets. -/
def printRow : Submission := ⟨1, 7, 3, "python", "print(1)", "PENDING", none, none, 0⟩

/-- The event for it. -/
def printEvent : SubmissionQueuedEvent :=
  submissionQueuedEvent printSolution "3" printRow "2025-01-01T00:00:00.000Z"

/-- The database with the row. -/
def printDatabase : Database where
  problems := [printProblem]
  submissions := [printRow]
  results := []
  nextId := 2
  nodup_problems := by decide
  nodup_submissions := by decide
  lt_nextId := by decide
  problem_mem := by decide

end JudgeIt
