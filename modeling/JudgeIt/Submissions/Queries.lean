import JudgeIt.Auth.Database
import JudgeIt.Data.Pages
import JudgeIt.Submissions.Database

/-!
# Reading submissions

The users and the submissions are tables of one database, in which a submission belongs to a user.
A query for submissions joins each row with the name of its user and the title of its problem, and
the two foreign keys make the join lose nothing.

`getAllSubmissions` answers with one page. The rows are in the order of their primary key, which is
how Prisma orders a query that has `take` and no `orderBy`. Walking through the pages by the
reported number of them lists every row once, which is `getAllSubmissions_pages`.
-/

namespace JudgeIt

open JsString

/-- The tables for submissions together with those for users. -/
structure Tables where
  database : Database
  users : AuthDatabase
  /-- The foreign key `Submission.user_id`. -/
  user_mem : ∀ row ∈ database.submissions, row.user_id ∈ users.users.rows.map User.id

/-- A row of `Submission`, with the fields `user.username` and `problem.title` it is joined with. -/
structure SubmissionResponse extends Submission where
  username : JsString
  title : JsString
  deriving DecidableEq

/-- Where a page is in the list it is a page of. -/
structure Pagination where
  total : ℕ
  total_pages : ℤ
  page : ℤ
  per_page : ℕ
  deriving DecidableEq

/-- A page of submissions. -/
structure SubmissionListResponse where
  data : List SubmissionResponse
  pagination : Pagination
  deriving DecidableEq

/-- The part of a query that `class-validator` lets through. -/
structure PaginationDto where
  limit : ℕ := 10
  offset : ℕ := 0
  one_le_limit : 1 ≤ limit := by decide

/-- `where: { user_id, ...(verdict ? { verdicate: verdict } : {}) }`. -/
def SubmissionWhere (userId : ℤ) (verdict : Option JsString) (row : Submission) : Prop :=
  row.user_id = userId ∧ (JsString.truthy verdict → verdict = some row.verdicate)

instance submissionWhere_decidable (userId : ℤ) (verdict : Option JsString) :
    DecidablePred (SubmissionWhere userId verdict) := fun _ ↦ inferInstanceAs (Decidable (_ ∧ _))

namespace Tables

variable (t : Tables)

/-- `include: { user: { select: { username } }, problem: { select: { title } } }`. -/
def includeNames (row : Submission) : Option SubmissionResponse :=
  ((t.users.findById row.user_id).map (·.username)).bind fun username ↦
    (t.database.findProblem (some row.problem_id)).map fun problem ↦
      { row with
        username := username
        title := problem.title }

/-- The rows a query selects, in the order of their primary key. -/
def selectSubmissions (userId : ℤ) (verdict : Option JsString) : List Submission :=
  (t.database.submissions.filter (SubmissionWhere userId verdict)).insertionSort fun a b ↦
    a.id ≤ b.id

/-- `getAllSubmissions(userId, verdict, limit, offset)`. -/
def getAllSubmissions (userId : ℤ) (verdict : Option JsString) (limit offset : Option ℕ) :
    SubmissionListResponse :=
  let limit := limit.getD 10
  let offset := offset.getD 0
  let submissions :=
    (((t.selectSubmissions userId verdict).drop offset).take limit).filterMap t.includeNames
  let count := (t.database.submissions.filter (SubmissionWhere userId verdict)).length
  { data := submissions
    pagination :=
      { total := count
        total_pages := ⌈(count : ℚ) / limit⌉
        page := ⌊(offset : ℚ) / limit⌋ + 1
        per_page := limit } }

/-- `getSubmissionDetails(submissionId)`. -/
def getSubmissionDetails (submissionId : ℤ) : Except Exception SubmissionResponse :=
  match (t.database.submission? submissionId).bind t.includeNames with
  | none => .error (.NotFoundException (.ofString "Submission #" ++
      JsString.ofInt submissionId ++ .ofString " not found"))
  | some submission => .ok submission

variable {t} {userId : ℤ} {verdict : Option JsString} {limit offset k : ℕ} {row : Submission}

/-! ## Joining with names -/

theorem exists_includeNames (h : row ∈ t.database.submissions) :
    ∃ r, t.includeNames row = some r ∧ r.toSubmission = row := by
  obtain ⟨user, huser⟩ := Option.isSome_iff_exists.mp
    (AutoTable.isSome_find?_iff.mpr (t.user_mem row h))
  obtain ⟨p, hp, hid⟩ := List.mem_map.mp (t.database.problem_mem row h)
  have hfound : (t.database.findProblem (some row.problem_id)).isSome :=
    List.find?_isSome.mpr ⟨p, hp, by simpa using hid⟩
  obtain ⟨problem, hproblem⟩ := Option.isSome_iff_exists.mp hfound
  refine ⟨{ row with username := user.username, title := problem.title }, ?_, rfl⟩
  rw [includeNames, AuthDatabase.findById, huser, hproblem]
  rfl

/-- The join loses no row. -/
theorem map_filterMap_includeNames {l : List Submission}
    (h : ∀ row ∈ l, row ∈ t.database.submissions) :
    (l.filterMap t.includeNames).map SubmissionResponse.toSubmission = l := by
  induction l with
  | nil => rfl
  | cons row l ih =>
    obtain ⟨hrow, hl⟩ := List.forall_mem_cons.mp h
    obtain ⟨r, hr, heq⟩ := exists_includeNames hrow
    rw [List.filterMap_cons_some hr, List.map_cons, ih hl, heq]

/-! ## Pages -/

theorem selectSubmissions_perm (t : Tables) (userId : ℤ) (verdict : Option JsString) :
    (t.selectSubmissions userId verdict).Perm
      (t.database.submissions.filter (SubmissionWhere userId verdict)) :=
  List.perm_insertionSort _ _

theorem map_data_getAllSubmissions (t : Tables) (userId : ℤ) (verdict : Option JsString)
    (limit offset : ℕ) :
    (t.getAllSubmissions userId verdict (some limit) (some offset)).data.map
        SubmissionResponse.toSubmission
      = ((t.selectSubmissions userId verdict).drop offset).take limit := by
  refine map_filterMap_includeNames fun row hrow ↦ ?_
  have hselected := List.mem_of_mem_drop (List.mem_of_mem_take hrow)
  exact List.mem_of_mem_filter ((t.selectSubmissions_perm userId verdict).subset hselected)

theorem length_data_getAllSubmissions (t : Tables) (userId : ℤ) (verdict : Option JsString)
    (limit offset : ℕ) :
    (t.getAllSubmissions userId verdict (some limit) (some offset)).data.length
      = (((t.selectSubmissions userId verdict).drop offset).take limit).length := by
  rw [← map_data_getAllSubmissions, List.length_map]

/-- The answer for page `k`, counting from 0. -/
def page (t : Tables) (userId : ℤ) (verdict : Option JsString) (limit k : ℕ) :
    SubmissionListResponse :=
  t.getAllSubmissions userId verdict (some limit) (some (k * limit))

/-- The number of pages that the first page reports. -/
def totalPages (t : Tables) (userId : ℤ) (verdict : Option JsString) (limit : ℕ) : ℕ :=
  (t.page userId verdict limit 0).pagination.total_pages.toNat

theorem map_data_page (t : Tables) (userId : ℤ) (verdict : Option JsString) (limit k : ℕ) :
    (t.page userId verdict limit k).data.map SubmissionResponse.toSubmission
      = (t.selectSubmissions userId verdict).page limit k :=
  t.map_data_getAllSubmissions userId verdict limit (k * limit)

theorem totalPages_eq (t : Tables) (userId : ℤ) (verdict : Option JsString) (limit : ℕ) :
    (t.totalPages userId verdict limit : ℤ)
      = ⌈((t.selectSubmissions userId verdict).length : ℚ) / limit⌉ := by
  have hnonneg : 0 ≤ ⌈((t.selectSubmissions userId verdict).length : ℚ) / limit⌉ :=
    Int.ceil_nonneg (by positivity)
  rw [← Int.toNat_of_nonneg hnonneg, (t.selectSubmissions_perm userId verdict).length_eq]
  rfl

theorem pagination_page (t : Tables) (userId : ℤ) (verdict : Option JsString)
    (hlimit : 1 ≤ limit) (k : ℕ) : (t.page userId verdict limit k).pagination =
      { total := (t.selectSubmissions userId verdict).length
        total_pages := t.totalPages userId verdict limit
        page := k + 1
        per_page := limit } := by
  have hne : (limit : ℚ) ≠ 0 := by exact_mod_cast Nat.one_le_iff_ne_zero.mp hlimit
  have hpage : ⌊((k * limit : ℕ) : ℚ) / limit⌋ = k := by
    rw [Nat.cast_mul, mul_div_cancel_right₀ _ hne, Int.floor_natCast]
  have hlength := (t.selectSubmissions_perm userId verdict).length_eq
  rw [totalPages_eq, hlength, ← hpage]
  rfl

/-- **Walking through the pages.** The reported number of pages together list every submission of
the user that the filter selects, and each once. Page `k` reports that it is page `k + 1`, and all
report the same total. Only the last may be short, and there is nothing from the total on. -/
theorem getAllSubmissions_pages (t : Tables) (userId : ℤ) (verdict : Option JsString)
    (hlimit : 1 ≤ limit) :
    ((List.range (t.totalPages userId verdict limit)).flatMap fun k ↦
        (t.page userId verdict limit k).data.map SubmissionResponse.toSubmission).Perm
      (t.database.submissions.filter (SubmissionWhere userId verdict)) ∧
    (∀ k, (t.page userId verdict limit k).pagination =
      { total := (t.database.submissions.filter (SubmissionWhere userId verdict)).length
        total_pages := t.totalPages userId verdict limit
        page := k + 1
        per_page := limit }) ∧
    (∀ k, k + 1 < t.totalPages userId verdict limit →
      (t.page userId verdict limit k).data.length = limit) ∧
    ∀ offset, (t.database.submissions.filter (SubmissionWhere userId verdict)).length ≤ offset →
      (t.getAllSubmissions userId verdict (some limit) (some offset)).data = [] := by
  have hperm := t.selectSubmissions_perm userId verdict
  refine ⟨?_, fun k ↦ ?_, fun k hk ↦ ?_, fun offset hoffset ↦ ?_⟩
  · have hreach : (t.selectSubmissions userId verdict).length
        ≤ t.totalPages userId verdict limit * limit := by
      rw [← Int.toNat_natCast (t.totalPages userId verdict limit), totalPages_eq]
      exact List.le_ceil_div_mul _ hlimit
    have hpages := List.flatMap_page_range_of_le hreach
    simp only [map_data_page]
    rwa [hpages]
  · rw [pagination_page t userId verdict hlimit k, hperm.length_eq]
  · have hlast :
        ((k + 1 : ℕ) : ℤ) < ⌈((t.selectSubmissions userId verdict).length : ℚ) / limit⌉ := by
      rw [← totalPages_eq]
      exact_mod_cast hk
    rw [page, length_data_getAllSubmissions]
    exact List.length_page ((List.lt_ceil_div_iff hlimit).mp hlast).le
  · have hdrop : (t.selectSubmissions userId verdict).drop offset = [] :=
      List.drop_eq_nil_of_le (hperm.length_eq.trans_le hoffset)
    have hmap := t.map_data_getAllSubmissions userId verdict limit offset
    rw [hdrop, List.take_nil] at hmap
    exact List.map_eq_nil_iff.mp hmap

end Tables

/-! ## Three of five submissions on two pages -/

/-- A user with the given number and name. -/
def namedUser (id : ℤ) (name : JsString) : User := ⟨id, name, name, none, none, [.USER]⟩

/-- Two users. -/
def someUsers : AuthDatabase where
  users := (AutoTable.empty.insert (namedUser 1 "ada") rfl).insert (namedUser 2 "bob") rfl
  accounts := .empty
  resetTokens := .empty
  nodup_email := (by decide : ([ofString "ada", ofString "bob"] : List JsString).Nodup)
  nodup_username := (by decide : ([ofString "ada", ofString "bob"] : List JsString).Nodup)
  nodup_providerKey := AuthDatabase.empty.nodup_providerKey
  account_user := List.forall_mem_nil _
  token_user := List.forall_mem_nil _

/-- A submission of the first user. -/
def pendingRow (id : ℤ) (code : JsString) : Submission where
  id := id
  problem_id := 1
  user_id := 1
  language := "python"
  source_code := code
  verdicate := "PENDING"
  execution_time := none
  memory_user := none
  created_at := 0

/-- Tables with five submissions, of which the first user has three with a wrong answer. -/
def fiveRows : Tables where
  database :=
    { problems := [⟨1, "One", "easy", 256, 2⟩]
      submissions := [{ pendingRow 1 "a" with verdicate := "WA" }, pendingRow 2 "b",
        { pendingRow 3 "c" with user_id := 2, verdicate := "WA" },
        { pendingRow 4 "d" with verdicate := "WA" }, { pendingRow 5 "e" with verdicate := "WA" }]
      results := []
      nextId := 6
      nodup_problems := List.nodup_singleton (1 : ℤ)
      nodup_submissions := (by decide : ([1, 2, 3, 4, 5] : List ℤ).Nodup)
      lt_nextId := by simp [pendingRow]
      problem_mem := by simp [pendingRow] }
  users := someUsers
  user_mem := by simp [pendingRow, someUsers, namedUser]

/-- A page of two and a page of one, without the other user's row and without the one that waits. -/
theorem getAllSubmissions_pages_fiveRows : ((List.range 2).flatMap fun k ↦
      (fiveRows.page 1 (some "WA") 2 k).data.map SubmissionResponse.toSubmission).Perm
        [{ pendingRow 1 "a" with verdicate := "WA" }, { pendingRow 4 "d" with verdicate := "WA" },
          { pendingRow 5 "e" with verdicate := "WA" }] ∧
    (fiveRows.page 1 (some "WA") 2 1).pagination = ⟨3, 2, 2, 2⟩ := by
  have hpages : fiveRows.totalPages 1 (some "WA") 2 = 2 := by decide +kernel
  obtain ⟨hrows, hpagination, -, -⟩ :=
    fiveRows.getAllSubmissions_pages 1 (some "WA") (by decide : 1 ≤ 2)
  rw [hpages] at hrows hpagination
  exact ⟨hrows, hpagination 1⟩

end JudgeIt
