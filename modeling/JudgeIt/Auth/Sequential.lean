import JudgeIt.Auth.Calls
import JudgeIt.Auth.Persistence
import JudgeIt.Auth.World
import JudgeIt.Transition.Run

/-!
# One request after the other

A sequential run serves each request to its end before the next one comes in. Everything a request
does to the stored hashes of refresh tokens is then one of three things: nothing, a logout, or the
start of a session, and `ServeStep.rtChange` is that case analysis.

Whether a refresh token would be accepted is a property of the tables: it is compared with the hash
that is stored for the user and with nothing else.
-/

namespace JudgeIt

open Async AuthDatabase

/-- A request that has been served. -/
structure Served where
  request : AuthRequest
  trace : List (Event AuthCall.Res)
  outcome : Except Exception Reply

/-- The request is served, with nothing else going on. -/
def ServeStep (M : AuthModule) (db : AuthDatabase) (a : Served) (db' : AuthDatabase) : Prop :=
  (a.request.serve M).Eval a.trace a.outcome ∧ Answers.Steps db a.trace db'

/-- The refresh token the request exchanges, when it succeeds. -/
def Served.exchanged : Served → Option (ℤ × JsString)
  | ⟨.refreshTokens userId rt, _, .ok _⟩ => some (userId, rt)
  | _ => none

/-- A refresh token that can be exchanged. -/
def Accepts (M : AuthModule) (db : AuthDatabase) (userId : ℤ) (rt : JsString) : Prop :=
  ∃ a db', ServeStep M db a db' ∧ a.exchanged = some (userId, rt)

variable {M : AuthModule} {db db' : AuthDatabase} {a : Served} {userId : ℤ} {rt : JsString}
  {tr : List (Event AuthCall.Res)} {user : User} {w : World}

theorem World.serveStep (request : AuthRequest) : ServeStep M w.db
    ⟨request, (w.serve M request).1, (w.serve M request).2.1⟩ (w.serve M request).2.2.db :=
  ⟨eval_serve, steps_serve⟩

/-! ## The checks of a refresh -/

theorem eval_checkRefreshToken {out : Except Exception User}
    (h : (AuthService.checkRefreshToken M userId rt).Eval tr out) (hout : out = .ok user) :
    ∃ stored, tr = [⟨.findById userId, .ok (some user)⟩, ⟨.verify user.hashedRt rt, .ok ()⟩] ∧
      user.hashedRt = some stored ∧ stored ≠ [] ∧ M.argon2.verify stored rt = .ok true := by
  subst hout
  obtain ⟨r, tr, rfl, h⟩ := h
  rcases r with e | _ | found
  · cases h.2
  · cases h.2
  rcases Program.eval_ite h with ⟨-, -, he⟩ | ⟨htruthy, hverify⟩
  · cases he
  rcases Program.eval_bind_iff.mp hverify with ⟨e, -, he⟩ | ⟨matches', tr₁, tr₂, rfl, hv, hend⟩
  · cases he
  obtain ⟨r, rfl, hr⟩ := eval_verify_iff.mp hv
  rcases matches' with _ | _
  · cases hend.2
  obtain ⟨rfl, hend⟩ := hend
  cases hend
  obtain ⟨stored, hhash, hne⟩ := JsString.truthy_iff.mp (by simpa using htruthy)
  rcases r with e | _
  · cases hr
  refine ⟨stored, rfl, hhash, hne, ?_⟩
  rw [hhash] at hr
  exact hr.symm

theorem World.exists_serve_refresh {stored : JsString} (h : w.db.findById userId = some user)
    (hhash : user.hashedRt = some stored) (hne : stored ≠ [])
    (hverify : M.argon2.verify stored rt = .ok true) :
    ∃ tokens, (w.serve M (.refreshTokens userId rt)).2.1 = .ok (.tokens tokens) := by
  have htruthy : JsString.truthy (some stored) = true := JsString.truthy_iff.mpr ⟨_, rfl, hne⟩
  have hid : user.id = userId := (AutoTable.find?_eq_some_iff.mp h).2
  have hsome : (w.db.users.find? userId).isSome := by
    rw [show w.db.users.find? userId = _ from h]
    rfl
  obtain ⟨db', hdb'⟩ : ∃ db', w.db.updateRtHash user.id (M.argon2.hash w.salt
      (M.jwtService.sign M.refreshOptions ⟨user.id, user.email, some user.role⟩
        (w.time / 1000))) = some db' :=
    ⟨_, updateRtHash_eq_some_iff.mpr ⟨hid ▸ hsome, rfl⟩⟩
  refine ⟨tokensAt M ⟨user.id, user.email, some user.role⟩ (w.time / 1000) (w.time / 1000), ?_⟩
  simp only [serve, AuthRequest.serve, AuthService.refreshTokens, AuthService.checkRefreshToken]
  simp only [UsersRepository.findById, verify, Program.request, Program.bind, Program.bind_eq,
    Program.run, respond, h, Program.ofExcept, Program.pure_eq, hhash, htruthy, Bool.not_true,
    Bool.false_eq_true, if_false, hverify]
  simp only [AuthService.startSession, AuthService.getTokens, AuthService.updateRtHash, hash,
    signAsync, Program.both, Program.attempt, UsersRepository.updateRtHash, Program.request,
    Program.bind, Program.bind_eq, Program.run, respond, Program.pure_eq, Program.ofExcept]
  rw [hdb']
  rfl

theorem accepts_iff : Accepts M db userId rt ↔
    ∃ stored, db.rtOf userId = some stored ∧ stored ≠ [] ∧
      M.argon2.verify stored rt = .ok true := by
  constructor
  · rintro ⟨⟨request, tr, out⟩, db', ⟨heval, hsteps⟩, hexchanged⟩
    obtain ⟨out, rfl⟩ : ∃ r, out = .ok r := by
      rcases out with _ | r
      · cases request <;> cases hexchanged
      · exact ⟨r, rfl⟩
    obtain rfl : request = .refreshTokens userId rt := by
      cases request <;> cases hexchanged
      rfl
    rcases AuthRequest.eval_serve rfl heval with ⟨e, -, he⟩ | ⟨user, tr₁, tr₂, out', rfl, hx, -, -⟩
    · cases he
    obtain ⟨stored, rfl, hhash, hne, hverify⟩ := eval_checkRefreshToken hx rfl
    obtain ⟨db₁, ⟨-, hfind⟩, -⟩ := hsteps
    refine ⟨stored, ?_, hne, hverify⟩
    rw [AuthDatabase.rtOf, ← AuthDatabase.findById, ← hfind, Option.bind_some, hhash]
  · rintro ⟨stored, hrt, hne, hverify⟩
    obtain ⟨user, hfind, hhash⟩ := Option.bind_eq_some_iff.mp hrt
    let w : World := ⟨db, 0, [], [], [], fun _ ↦ .ok ()⟩
    obtain ⟨tokens, htokens⟩ := World.exists_serve_refresh (w := w) hfind hhash hne hverify
    exact ⟨_, _, w.serveStep _, by rw [htokens]; rfl⟩

theorem accepts_iff_of_rtOf {salt rt' : JsString}
    (h : db.rtOf userId = some (M.argon2.hash salt rt')) : Accepts M db userId rt ↔ rt = rt' := by
  rw [accepts_iff, h]
  simp only [Option.some.injEq, exists_eq_left', M.argon2.verify_hash, Except.ok.injEq,
    decide_eq_true_eq]
  exact and_iff_right (M.argon2.hash_ne_nil salt rt')

theorem not_accepts_of_rtOf (h : db.rtOf userId = none) : ¬Accepts M db userId rt := by
  rw [accepts_iff, h]
  simp

theorem accepts_congr {db' : AuthDatabase} (h : db'.rtOf userId = db.rtOf userId) :
    Accepts M db' userId rt ↔ Accepts M db userId rt := by
  rw [accepts_iff, accepts_iff, h]

/-! ## What becomes of the stored hashes -/

/-- The event in which the hash of a refresh token is stored. -/
def storing (userId : ℤ) (rt : JsString) : Event AuthCall.Res := ⟨.updateRtHash userId rt, .ok ()⟩

/-- The trace of a session that is started. -/
def sessionTrace (M : AuthModule) (payload : JwtPayload) (iat iat' : ℤ) (salt : JsString) :
    List (Event AuthCall.Res) :=
  [⟨.signAsync payload M.accessOptions, .ok iat⟩, ⟨.signAsync payload M.refreshOptions, .ok iat'⟩,
    ⟨.hash (tokensAt M payload iat iat').refresh_token, .ok salt⟩,
    storing payload.sub (M.argon2.hash salt (tokensAt M payload iat iat').refresh_token)]

theorem rtAfter_of_keepsRt {e : Event AuthCall.Res} {stored : Option JsString}
    (h : e.1.keepsRt = true) : rtAfter userId stored e = stored := by
  obtain ⟨op, r⟩ := e
  cases op <;> first | rfl | cases h

/-- The stored hash, call by call. -/
theorem rtOf_steps (h : Answers.Steps db tr db') :
    db'.rtOf userId = tr.foldl (rtAfter userId) (db.rtOf userId) := by
  induction tr generalizing db with
  | nil => rw [show db' = db from h]; rfl
  | cons e tr ih =>
    obtain ⟨db₁, hstep, hsteps⟩ := h
    rw [ih hsteps, List.foldl_cons, Answers.rtOf_eq hstep]

theorem rtOf_of_keepsRt (hkeeps : ∀ e ∈ tr, e.1.keepsRt = true) (h : Answers.Steps db tr db') :
    db'.rtOf userId = db.rtOf userId := by
  rw [rtOf_steps h]
  clear h
  induction tr with
  | nil => rfl
  | cons e tr ih =>
    rw [List.foldl_cons, rtAfter_of_keepsRt (hkeeps e List.mem_cons_self)]
    exact ih fun e he ↦ hkeeps e (List.mem_cons_of_mem _ he)

theorem storing_notMem_of_keepsRt (hkeeps : ∀ e ∈ tr, e.1.keepsRt = true) (userId : ℤ)
    (rt : JsString) : storing userId rt ∉ tr :=
  fun h ↦ Bool.false_ne_true (hkeeps _ h)

theorem Session.of_ok {payload : JwtPayload} {tokens : Tokens}
    (h : Session M payload tr (.ok tokens)) : ∃ iat iat' salt,
      tr = sessionTrace M payload iat iat' salt ∧ tokens = tokensAt M payload iat iat' := by
  generalize hout : (Except.ok tokens : Except Exception Tokens) = out at h
  cases h with
  | unsigned _ | unhashed _ _ _ => cases hout
  | hashed iat iat' salt r =>
    rcases r with e | _
    · cases hout
    · exact ⟨iat, iat', salt, rfl, Except.ok.inj hout⟩

theorem Session.of_error {payload : JwtPayload} {e : Exception}
    (h : Session M payload tr (.error e)) (stored : Option JsString) :
    tr.foldl (rtAfter userId) stored = stored ∧ ∀ id rt, storing id rt ∉ tr := by
  generalize hout : (Except.error e : Except Exception Tokens) = out at h
  cases h with
  | unsigned _ | unhashed _ _ _ => exact ⟨rfl, by simp [storing]⟩
  | hashed iat iat' salt r =>
    rcases r with e' | _
    · exact ⟨rfl, by simp [storing]⟩
    · cases hout

/-- What a served request has done to the stored hashes of refresh tokens. -/
inductive RtChange (M : AuthModule) (db : AuthDatabase) (a : Served) (db' : AuthDatabase) : Prop
  /-- Nothing. -/
  | kept : (∀ userId, db'.rtOf userId = db.rtOf userId) →
      (∀ id rt, storing id rt ∉ a.trace) → a.exchanged = none → RtChange M db a db'
  /-- It has removed the one of a user. -/
  | loggedOut (id : ℤ) :
      (∀ userId, db'.rtOf userId = if userId = id then none else db.rtOf userId) →
      (∀ id rt, storing id rt ∉ a.trace) → a.exchanged = none → RtChange M db a db'
  /-- It has found a user and started a session for him. -/
  | started {x : Authing User} {user : User} {tr : List (Event AuthCall.Res)} {db₁ : AuthDatabase}
      {payload : JwtPayload} (iat iat' : ℤ) (salt : JsString) :
      a.request.identify M = some x → x.Eval tr (.ok user) → Answers.Steps db tr db₁ →
      payload = ⟨user.id, user.email, a.request.roles user⟩ →
      a.trace = tr ++ sessionTrace M payload iat iat' salt →
      a.outcome = .ok (.tokens (tokensAt M payload iat iat')) →
      (∀ userId, db'.rtOf userId = if userId = payload.sub then
        some (M.argon2.hash salt (tokensAt M payload iat iat').refresh_token)
        else db.rtOf userId) → RtChange M db a db'

/-- **The three things a served request can do to the stored hashes.** -/
theorem ServeStep.rtChange (h : ServeStep M db a db') : RtChange M db a db' := by
  obtain ⟨request, tr, out⟩ := a
  obtain ⟨heval, hsteps⟩ : (request.serve M).Eval tr out ∧ Answers.Steps db tr db' := h
  cases hid : request.identify M with
  | none =>
    -- the request starts no session: of these, a logout alone touches a stored hash
    have hexchanged : Served.exchanged ⟨request, tr, out⟩ = none := by
      cases request <;> first | rfl | cases hid
    by_cases hlogout : ∃ id, request = .logout id
    · obtain ⟨id, rfl⟩ := hlogout
      obtain ⟨r, tr, rfl, hend⟩ := heval
      have hrt (userId : ℤ) : db'.rtOf userId = _ := rtOf_steps hsteps
      rcases r with e | _ <;> obtain ⟨rfl, -⟩ := hend
      · exact .kept hrt (by simp [storing]) hexchanged
      · exact .loggedOut id hrt (by simp [storing]) hexchanged
    · push Not at hlogout
      have hkeeps := (careful_serve hid hlogout).keepsRt heval
      exact .kept (fun _ ↦ rtOf_of_keepsRt hkeeps hsteps) (storing_notMem_of_keepsRt hkeeps)
        hexchanged
  | some x =>
    rcases AuthRequest.eval_serve hid heval with ⟨e, hx, rfl⟩ |
      ⟨user, tr₁, tr₂, out', rfl, hx, hsession, rfl⟩
    · have hkeeps := keepsRt_of_identify hid hx
      exact .kept (fun _ ↦ rtOf_of_keepsRt hkeeps hsteps) (storing_notMem_of_keepsRt hkeeps)
        (by cases request <;> rfl)
    have hkeeps := keepsRt_of_identify hid hx
    have hnot := storing_notMem_of_keepsRt hkeeps
    obtain ⟨db₁, hsteps₁, hsteps₂⟩ := Env.steps_append.mp hsteps
    rcases out' with e | tokens
    -- a session that failed has stored nothing
    · refine .kept (fun userId ↦ ?_) (fun id rt hmem ↦ ?_) (by cases request <;> rfl)
      · rw [rtOf_steps hsteps₂, (hsession.of_error _).1, rtOf_of_keepsRt hkeeps hsteps₁]
      · rcases List.mem_append.mp hmem with hmem | hmem
        · exact hnot id rt hmem
        · have herror : tr₂.foldl (rtAfter id) none = none ∧ _ := hsession.of_error none
          exact herror.2 id rt hmem
    · obtain ⟨iat, iat', salt, rfl, rfl⟩ := hsession.of_ok
      refine .started iat iat' salt hid hx hsteps₁ rfl rfl rfl fun userId ↦ ?_
      rw [rtOf_steps hsteps₂, rtOf_of_keepsRt hkeeps hsteps₁]
      rfl

end JudgeIt
