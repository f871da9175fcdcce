import JudgeIt.Submissions.Queries
import JudgeIt.Submissions.Solved

/-!
# The profile

A profile shows `recentAcProblems`, at most ten of the problems the user has solved. They are the
first ten that `getSolvedProblems` lists, and that query has to sort by the number of the problem,
because `DISTINCT ON` keeps the first row of each number. So the ten with the smallest numbers are
shown, however long ago they were solved. Up to ten solved problems this is all of them; beyond ten
it is the most recent ones exactly when the numbers happen to say so, which is
`getProfile_recent_iff`.
-/

namespace JudgeIt

/-- What a profile shows. -/
structure UserProfile where
  username : JsString
  email : JsString
  submissionsCount : ℕ
  solvedProblemsCount : ℕ
  recentAcProblems : List SolvedProblemResult
  deriving DecidableEq

/-- `getSubmissionsCount(userId)`. -/
def Database.getSubmissionsCount (db : Database) (userId : ℤ) : ℕ :=
  (db.submissions.filter (·.user_id = userId)).length

/-- `getProfile(userId)`. A query for `NaN` is refused, and `user!` asserts that there is one. -/
def Tables.getProfile (t : Tables) (userId : JsString) : Except Exception UserProfile :=
  match userId.parseInt with
  | none => .error (.Error "PrismaClientValidationError")
  | some id =>
    let solvedProblems := t.database.getSolvedProblems id
    match t.users.findById id with
    | none => .error (.Error "TypeError: Cannot read properties of null (reading 'username')")
    | some user => .ok
      { username := user.username
        email := user.email
        submissionsCount := t.database.getSubmissionsCount id
        solvedProblemsCount := solvedProblems.length
        recentAcProblems := solvedProblems.take 10 }

/-- The problems are the at most ten that the user solved last. -/
structure MostRecent (db : Database) (userId : ℤ) (profile : UserProfile) : Prop where
  length : profile.recentAcProblems.length = min 10 profile.solvedProblemsCount
  nodup : (profile.recentAcProblems.map (·.id)).Nodup
  solved : ∀ r ∈ profile.recentAcProblems, r ∈ db.getSolvedProblems userId
  recent : ∀ r ∈ profile.recentAcProblems, ∀ r' ∈ db.getSolvedProblems userId,
    r'.id ∉ profile.recentAcProblems.map (·.id) → r'.solved_at ≤ r.solved_at

/-- The number of problems with a smaller number that the user has solved. -/
def Database.solvedBefore (db : Database) (userId problemId : ℤ) : ℕ :=
  (((db.acceptedSubmissions userId).map (·.problem_id)).dedup.filter (· < problemId)).length

/-- Each of the ten solved problems with the smallest numbers was accepted again after, or at the
time of, every acceptance of a solved problem that is not one of these. -/
def FirstAreRecent (db : Database) (userId : ℤ) : Prop :=
  ∀ s ∈ db.acceptedSubmissions userId, ∀ s' ∈ db.acceptedSubmissions userId,
    db.solvedBefore userId s.problem_id < 10 → 10 ≤ db.solvedBefore userId s'.problem_id →
    ∃ s'' ∈ db.acceptedSubmissions userId,
      s''.problem_id = s.problem_id ∧ s'.created_at ≤ s''.created_at

variable {t : Tables} {userId : JsString} {id : ℤ} {profile : UserProfile} {db : Database}
  {r : SolvedProblemResult}

/-! ## The first ten -/

/-- The first ten listed are those with fewer than ten solved problems before them. -/
theorem mem_take_getSolvedProblems_iff (hr : r ∈ db.getSolvedProblems id) :
    r ∈ (db.getSolvedProblems id).take 10 ↔ db.solvedBefore id r.id < 10 := by
  have hperm := (Database.map_id_getSolvedProblems_perm db id).filter (· < r.id)
  rw [List.mem_take_iff_of_pairwise_lt (Database.getSolvedProblems_increasing db id) hr,
    hperm.length_eq, Database.solvedBefore]

theorem mem_map_id_take_iff (hr : r ∈ db.getSolvedProblems id) :
    r.id ∈ ((db.getSolvedProblems id).take 10).map (·.id) ↔
      r ∈ (db.getSolvedProblems id).take 10 := by
  refine ⟨fun hmem ↦ ?_, List.mem_map_of_mem⟩
  obtain ⟨r', hr', heq⟩ := List.mem_map.mp hmem
  have hsame : r' = r := List.inj_on_of_nodup_map Database.nodup_getSolvedProblems
    (List.mem_of_mem_take hr') hr heq
  exact hsame ▸ hr'

/-- Every accepted submission is of a listed problem, which was solved no earlier. -/
theorem exists_solved {s : Submission} (hs : s ∈ db.acceptedSubmissions id) :
    ∃ r ∈ db.getSolvedProblems id, r.id = s.problem_id ∧ s.created_at ≤ r.solved_at := by
  obtain ⟨r, hr, hid⟩ := List.mem_map.mp
    (Database.mem_getSolvedProblems.mpr (List.mem_map_of_mem (f := (·.problem_id)) hs))
  exact ⟨r, hr, hid, (Database.isGreatest_solved_at hr).2 ⟨s, hs, hid.symm, rfl⟩⟩

/-- The first ten are the most recent exactly when every other was solved before each of them. -/
theorem firstAreRecent_iff : FirstAreRecent db id ↔
    ∀ r ∈ (db.getSolvedProblems id).take 10, ∀ r' ∈ db.getSolvedProblems id,
      r' ∉ (db.getSolvedProblems id).take 10 → r'.solved_at ≤ r.solved_at := by
  constructor
  · intro h r hr r' hr' hout
    have hlisted := List.mem_of_mem_take hr
    obtain ⟨⟨s, hs, hid, -⟩, hlast⟩ := Database.isGreatest_solved_at hlisted
    obtain ⟨⟨s', hs', hid', htime⟩, -⟩ := Database.isGreatest_solved_at hr'
    have hfirst := (mem_take_getSolvedProblems_iff hlisted).mp hr
    have hlate := mt (mem_take_getSolvedProblems_iff hr').mpr hout
    obtain ⟨s'', hs'', hsame, hle⟩ :=
      h s hs s' hs' (by rwa [hid]) (by rw [hid']; exact not_lt.mp hlate)
    rw [← htime]
    exact hle.trans (hlast ⟨s'', hs'', hsame.trans hid, rfl⟩)
  · intro h s hs s' hs' hfirst hlate
    obtain ⟨r, hr, hid, -⟩ := exists_solved hs
    obtain ⟨r', hr', hid', htime'⟩ := exists_solved hs'
    have hle := h r ((mem_take_getSolvedProblems_iff hr).mpr (by rwa [hid])) r' hr' fun hmem ↦
      absurd ((mem_take_getSolvedProblems_iff hr').mp hmem) (by rw [hid']; exact not_lt.mpr hlate)
    -- the first of the two was last solved by a submission, and that is late enough
    obtain ⟨⟨s'', hs'', hsame, hlast⟩, -⟩ := Database.isGreatest_solved_at hr
    exact ⟨s'', hs'', hsame.trans hid, (htime'.trans hle).trans_eq hlast.symm⟩

/-! ## What the profile shows -/

/-- The profile of a user counts the solved problems and shows the first ten. -/
theorem getProfile_eq_ok {user : User} (huser : t.users.findById id = some user)
    (hid : userId.parseInt = some id) : ∃ profile, t.getProfile userId = .ok profile ∧
      profile.solvedProblemsCount = (t.database.getSolvedProblems id).length ∧
      profile.recentAcProblems = (t.database.getSolvedProblems id).take 10 := by
  simp only [Tables.getProfile, hid, huser]
  exact ⟨_, rfl, rfl, rfl⟩

/-- **The recent problems of a profile.** They are the most recently solved ones exactly when the
solved problems with the smallest numbers are. -/
theorem getProfile_recent_iff {user : User} (huser : t.users.findById id = some user)
    (hid : userId.parseInt = some id) : ∃ profile, t.getProfile userId = .ok profile ∧
      (MostRecent t.database id profile ↔ FirstAreRecent t.database id) := by
  obtain ⟨profile, hprofile, hcount, hshown⟩ := getProfile_eq_ok huser hid
  refine ⟨profile, hprofile, ?_⟩
  rw [firstAreRecent_iff]
  constructor
  · intro hrecent r hr r' hr' hout
    refine hrecent.recent r (hshown ▸ hr) r' hr' ?_
    rw [hshown, mem_map_id_take_iff hr']
    exact hout
  · intro hrecent
    refine ⟨?_, ?_, ?_, ?_⟩
    · rw [hshown, hcount, List.length_take]
    · rw [hshown]
      exact Database.nodup_getSolvedProblems.sublist ((List.take_sublist _ _).map _)
    · rw [hshown]
      exact fun r ↦ List.mem_of_mem_take
    · rw [hshown]
      intro r hr r' hr' hout
      exact hrecent r hr r' hr' (mt (mem_map_id_take_iff hr').mpr hout)

/-! ## Eleven solved problems -/

/-- A problem of the given number. -/
def numberedProblem (id : ℤ) : Problem := ⟨id, .ofInt id, "easy", 256, 2⟩

/-- An accepted submission for it, at a time equal to its number. -/
def acceptedRow (id : ℤ) : Submission where
  id := id
  problem_id := id
  user_id := 1
  language := "python"
  source_code := "a"
  verdicate := "ACCEPTED"
  execution_time := none
  memory_user := none
  created_at := id

/-- Eleven problems, solved in the order of their numbers. -/
def elevenSolved : Tables where
  database :=
    { problems := (List.range 11).map fun n ↦ numberedProblem (n + 1)
      submissions := (List.range 11).map fun n ↦ acceptedRow (n + 1)
      results := []
      nextId := 12
      nodup_problems := by decide
      nodup_submissions := by decide
      lt_nextId := by decide
      problem_mem := by decide }
  users := someUsers
  user_mem := by decide

/-- The iff applies to these tables. -/
theorem getProfile_recent_iff_elevenSolved : ∃ profile, elevenSolved.getProfile "1" = .ok profile ∧
    (MostRecent elevenSolved.database 1 profile ↔ FirstAreRecent elevenSolved.database 1) :=
  getProfile_recent_iff (by decide : elevenSolved.users.findById 1 = some (namedUser 1 "ada"))
    (by decide : (JsString.ofString "1").parseInt = some 1)

/-- The problem that was solved last is the one that is not shown. -/
theorem not_mostRecent_elevenSolved : ∃ profile, elevenSolved.getProfile "1" = .ok profile ∧
    profile.solvedProblemsCount = 11 ∧ ¬MostRecent elevenSolved.database 1 profile := by
  have hsolved : elevenSolved.database.getSolvedProblems 1
      = (List.range 11).map fun n ↦ ⟨n + 1, .ofInt (n + 1), "easy", none, none, n + 1⟩ := by
    decide +kernel
  obtain ⟨profile, hprofile, hcount, hshown⟩ := getProfile_eq_ok
    (by decide : elevenSolved.users.findById 1 = some (namedUser 1 "ada"))
    (by decide : (JsString.ofString "1").parseInt = some 1)
  rw [hsolved] at hcount hshown
  refine ⟨profile, hprofile, hcount, fun h ↦ ?_⟩
  have hlast := h.recent ⟨1, .ofInt 1, "easy", none, none, 1⟩ (by rw [hshown]; decide)
    ⟨11, .ofInt 11, "easy", none, none, 11⟩ (by rw [hsolved]; decide) (by rw [hshown]; decide)
  exact absurd hlast (by decide)

end JudgeIt
