import JudgeIt.Submissions.Queries
import JudgeIt.Submissions.Solved

/-!
# Whose submissions a user sees

Four endpoints read submissions. Three take the caller's number and select by it, so what they
answer is a function of the caller's own rows: two databases that differ only in the rows of others
cannot be told apart through them. The fourth, `GET /submissions/:submissionId`, selects by the
number of the submission alone. It tells two such databases apart exactly where they differ.
-/

namespace JudgeIt

/-- A request for submissions, of whoever is logged in. -/
inductive SubmissionsRequest
  /-- `GET /submissions/userSubmissions`. -/
  | userSubmissions (page : PaginationDto)
  /-- `GET /submissions/filtered`. -/
  | filtered (page : PaginationDto) (verdict : Option JsString)
  /-- `GET /submissions/:submissionId`. -/
  | submission (submissionId : ℤ)
  /-- `GET /user/solved-problems`. -/
  | solvedProblems

/-- What such a request is answered with. -/
inductive SubmissionsReply
  | list (response : SubmissionListResponse)
  | submission (response : SubmissionResponse)
  | solved (problems : List SolvedProblemResult)
  deriving DecidableEq

/-- The response to a user. -/
def SubmissionsRequest.respond (t : Tables) (userId : ℤ) :
    SubmissionsRequest → Except Exception SubmissionsReply
  | userSubmissions page =>
    .ok (.list (t.getAllSubmissions userId none (some page.limit) (some page.offset)))
  | filtered page verdict =>
    .ok (.list (t.getAllSubmissions userId verdict (some page.limit) (some page.offset)))
  | submission submissionId => (t.getSubmissionDetails submissionId).map .submission
  | solvedProblems => .ok (.solved (t.database.getSolvedProblems userId))

/-- The rows of `Submission` that belong to a user. -/
def Tables.ownSubmissions (t : Tables) (userId : ℤ) : List Submission :=
  t.database.submissions.filter (·.user_id = userId)

/-- Two states of the tables with the same submissions of the user, the same problems, and the same
names of users. -/
structure AgreeFor (userId : ℤ) (t t' : Tables) : Prop where
  own : t.ownSubmissions userId = t'.ownSubmissions userId
  problems : t.database.problems = t'.database.problems
  usernames : ∀ id, (t.users.findById id).map (·.username) = (t'.users.findById id).map (·.username)

variable {t t' : Tables} {userId id : ℤ} {verdict : Option JsString} {row : Submission}

/-! ## The endpoints that select by the caller -/

theorem filter_submissionWhere (t : Tables) (userId : ℤ) (verdict : Option JsString) :
    t.database.submissions.filter (SubmissionWhere userId verdict)
      = (t.ownSubmissions userId).filter (SubmissionWhere userId verdict) := by
  rw [Tables.ownSubmissions, List.filter_filter]
  refine List.filter_congr fun row _ ↦ ?_
  have hown : SubmissionWhere userId verdict row ↔
      SubmissionWhere userId verdict row ∧ row.user_id = userId :=
    ⟨fun hrow ↦ ⟨hrow, hrow.1⟩, And.left⟩
  rw [← Bool.decide_and, decide_eq_decide]
  exact hown

theorem acceptedSubmissions_eq (t : Tables) (userId : ℤ) : t.database.acceptedSubmissions userId
    = (t.ownSubmissions userId).filter (·.verdicate = JsString.ofString "ACCEPTED") := by
  rw [Tables.ownSubmissions, List.filter_filter]
  refine List.filter_congr fun row _ ↦ ?_
  rw [← Bool.decide_and, decide_eq_decide, and_comm]

namespace AgreeFor

theorem includeNames_eq (h : AgreeFor userId t t') : t.includeNames = t'.includeNames := by
  funext row
  simp only [Tables.includeNames, h.usernames, Database.findProblem, h.problems]

theorem getAllSubmissions_eq (h : AgreeFor userId t t') (verdict : Option JsString)
    (limit offset : Option ℕ) : t.getAllSubmissions userId verdict limit offset
      = t'.getAllSubmissions userId verdict limit offset := by
  simp only [Tables.getAllSubmissions, Tables.selectSubmissions, filter_submissionWhere, h.own,
    h.includeNames_eq]

theorem getSolvedProblems_eq (h : AgreeFor userId t t') :
    t.database.getSolvedProblems userId = t'.database.getSolvedProblems userId := by
  simp only [Database.getSolvedProblems, Database.solvedRows, acceptedSubmissions_eq, h.own,
    h.problems]

end AgreeFor

/-! ## The endpoint that does not -/

theorem submission?_eq_some_iff {db : Database} :
    db.submission? id = some row ↔ row ∈ db.submissions ∧ row.id = id := by
  constructor
  · intro h
    exact ⟨List.mem_of_find?_eq_some h, by simpa using List.find?_some h⟩
  · rintro ⟨hrow, rfl⟩
    have hfilter := List.filter_key_eq_singleton db.nodup_submissions hrow
    rw [Database.submission?, ← List.head?_filter, hfilter]
    rfl

theorem toSubmission_getSubmissionDetails (t : Tables) (id : ℤ) :
    (t.getSubmissionDetails id).toOption.map SubmissionResponse.toSubmission
      = t.database.submission? id := by
  rw [Tables.getSubmissionDetails]
  cases hrow : t.database.submission? id with
  | none => rfl
  | some row =>
    obtain ⟨r, hr, heq⟩ := Tables.exists_includeNames (submission?_eq_some_iff.mp hrow).1
    rw [Option.bind_some, hr, ← heq]
    rfl

/-- The endpoint tells two states apart exactly when they have different rows under the number. -/
theorem AgreeFor.getSubmissionDetails_eq_iff (h : AgreeFor userId t t') :
    t.getSubmissionDetails id = t'.getSubmissionDetails id ↔
      t.database.submission? id = t'.database.submission? id := by
  constructor
  · intro heq
    rw [← toSubmission_getSubmissionDetails, heq, toSubmission_getSubmissionDetails]
  · intro heq
    rw [Tables.getSubmissionDetails, heq, h.includeNames_eq, Tables.getSubmissionDetails]

/-- Rows of the user are the same, so the rows of others decide. -/
theorem AgreeFor.submission?_eq_iff (h : AgreeFor userId t t') :
    t.database.submission? id = t'.database.submission? id ↔
      ∀ row : Submission, row.id = id → row.user_id ≠ userId →
        (row ∈ t.database.submissions ↔ row ∈ t'.database.submissions) := by
  have hown : ∀ row : Submission, row.user_id = userId →
      (row ∈ t.database.submissions ↔ row ∈ t'.database.submissions) := by
    intro row hrow
    have hmem : row ∈ t.ownSubmissions userId ↔ row ∈ t'.ownSubmissions userId := by rw [h.own]
    simpa [Tables.ownSubmissions, hrow] using hmem
  constructor
  · intro heq row hid _
    have hrow : t.database.submission? id = some row ↔ t'.database.submission? id = some row := by
      rw [heq]
    simpa [submission?_eq_some_iff, hid] using hrow
  · intro hothers
    refine Option.ext fun row ↦ ?_
    rw [submission?_eq_some_iff, submission?_eq_some_iff]
    refine and_congr_left fun hid ↦ ?_
    by_cases hrow : row.user_id = userId
    · exact hown row hrow
    · exact hothers row hid hrow

/-! ## What a user learns of others -/

/-- **What a response reveals.** Two states that agree on the caller's own submissions get the same
response to every request, except to the one for a submission by its number, if it is another user's
and the states do not both have the same row for it. -/
theorem respond_eq_iff (h : AgreeFor userId t t') (request : SubmissionsRequest) :
    request.respond t userId = request.respond t' userId ↔
      ∀ submissionId, request = .submission submissionId →
        ∀ row : Submission, row.id = submissionId → row.user_id ≠ userId →
          (row ∈ t.database.submissions ↔ row ∈ t'.database.submissions) := by
  cases request with
  | userSubmissions page =>
    simp [SubmissionsRequest.respond, h.getAllSubmissions_eq]
  | filtered page verdict =>
    simp [SubmissionsRequest.respond, h.getAllSubmissions_eq]
  | solvedProblems => simp [SubmissionsRequest.respond, h.getSolvedProblems_eq]
  | submission submissionId =>
    have hmap : Function.Injective
        (Except.map SubmissionsReply.submission : Except Exception SubmissionResponse → _) := by
      rintro (e | r) (e' | r') heq <;> cases heq <;> rfl
    have hiff : t.getSubmissionDetails submissionId = t'.getSubmissionDetails submissionId ↔ _ :=
      h.getSubmissionDetails_eq_iff.trans h.submission?_eq_iff
    simp [SubmissionsRequest.respond, hmap.eq_iff, hiff]

/-! ## Reading another user's source code -/

/-- Tables with three submissions of the first user, of which the first one has the given code. -/
def threeRows (code : JsString) : Tables where
  database :=
    { problems := [⟨1, "One", "easy", 256, 2⟩]
      submissions := [pendingRow 1 code, pendingRow 2 "b", pendingRow 3 "c"]
      results := []
      nextId := 4
      nodup_problems := by decide
      nodup_submissions := (by decide : ([1, 2, 3] : List ℤ).Nodup)
      lt_nextId := by simp [pendingRow]
      problem_mem := by simp [pendingRow] }
  users := someUsers
  user_mem := by simp [pendingRow, someUsers, namedUser]

theorem agreeFor_threeRows (code code' : JsString) :
    AgreeFor 2 (threeRows code) (threeRows code') where
  own := rfl
  problems := rfl
  usernames := fun _ ↦ rfl

/-- The iff applies to those states. -/
theorem respond_eq_iff_threeRows :
    (SubmissionsRequest.submission 1).respond (threeRows "a") 2
        = (SubmissionsRequest.submission 1).respond (threeRows "z") 2 ↔
      ∀ submissionId, SubmissionsRequest.submission 1 = .submission submissionId →
        ∀ row : Submission, row.id = submissionId → row.user_id ≠ 2 →
          (row ∈ (threeRows "a").database.submissions ↔
            row ∈ (threeRows "z").database.submissions) :=
  respond_eq_iff (agreeFor_threeRows "a" "z") (.submission 1)

/-- The second user asks for a submission of the first, and gets its source code. -/
theorem respond_reveals : AgreeFor 2 (threeRows "a") (threeRows "z") ∧
    (SubmissionsRequest.submission 1).respond (threeRows "a") 2 =
      .ok (.submission { pendingRow 1 "a" with username := "ada", title := "One" }) ∧
    (SubmissionsRequest.submission 1).respond (threeRows "a") 2 ≠
      (SubmissionsRequest.submission 1).respond (threeRows "z") 2 :=
  ⟨agreeFor_threeRows "a" "z", rfl, by decide⟩

end JudgeIt
