import JudgeIt.Auth.PlainModule

/-!
# What a stranger learns about an address

Whoever may ask for a login or a password reset should not learn from the answer whether an address
is registered. Both are compared in two worlds that differ in one user. A login tells them apart
always: the lookup itself throws, with an error of its own, before the check in `login` that would
have thrown the common one. A request for a reset keeps silent about an unknown address, and about a
known one exactly when the mail goes out.
-/

namespace JudgeIt

open Async AuthDatabase

/-- The tables are the same but for one user, who has the address and registered with another
password. -/
structure DiffersIn (M : AuthModule) (email password : JsString) (db db' : AuthDatabase)
    (user : User)
    : Prop where
  unknown : email ∉ db.users.rows.map User.email
  known : ∃ l₁ l₂, db.users.rows = l₁ ++ l₂ ∧ db'.users.rows = l₁ ++ user :: l₂
  email_eq : user.email = email
  registered : ∃ salt password', user.hash = some (M.argon2.hash salt password') ∧
    password' ≠ password
  accounts : db'.accounts.rows = db.accounts.rows
  resetTokens : db'.resetTokens.rows = db.resetTokens.rows

/-- A login fails in the same way in both worlds, and a request for a reset comes to the same. -/
def RevealsNothing (M : AuthModule) (w w' : World) (dto : AuthDto) : Prop :=
  (∃ e, (w.serve M (.login dto)).2.1 = .error e ∧ (w'.serve M (.login dto)).2.1 = .error e) ∧
  (w.serve M (.sendPasswordResetEmail dto.email)).2.1 =
    (w'.serve M (.sendPasswordResetEmail dto.email)).2.1

variable {M : AuthModule} {w : World} {dto : AuthDto} {email password : JsString} {user : User}
  {db db' : AuthDatabase}

namespace World

/-! ## An unknown address -/

theorem serve_login_unknown (h : w.db.findByEmail dto.email = none) :
    (w.serve M (.login dto)).2.1 = .error (.BadRequestException "User is not found") := by
  simp only [serve, AuthRequest.serve, AuthService.login, AuthService.checkCredentials]
  simp only [UsersService.findUser, UsersRepository.findByEmail, Program.request, Program.bind,
    Program.bind_eq, Program.run, respond, h, Program.ofExcept]

theorem serve_reset_unknown (hemail : email ≠ []) (h : w.db.findByEmail email = none) :
    (w.serve M (.sendPasswordResetEmail email)).2.1 = .ok .done := by
  simp only [serve, AuthRequest.serve, AuthService.sendPasswordResetEmail]
  simp only [UsersService.findByEmail, if_neg hemail, UsersRepository.findByEmail, Program.request,
    Program.bind, Program.run, respond, h, Program.ofExcept, Program.pure_eq]

/-! ## A known one -/

theorem serve_login_mismatch {salt password : JsString}
    (h : w.db.findByEmail dto.email = some user)
    (hhash : user.hash = some (M.argon2.hash salt password)) (hne : password ≠ dto.password) :
    (w.serve M (.login dto)).2.1 = .error (.UnauthorizedException "Invalid credentials") := by
  have htruthy : JsString.truthy (some (M.argon2.hash salt password)) = true :=
    JsString.truthy_iff.mpr ⟨_, rfl, M.argon2.hash_ne_nil salt password⟩
  simp only [serve, AuthRequest.serve, AuthService.login, AuthService.checkCredentials]
  simp only [UsersService.findUser, UsersRepository.findByEmail, UsersRepository.hasAccount,
    Program.request, Program.bind, Program.bind_eq, Program.run, respond, h, Program.ofExcept,
    Program.pure_eq, hhash, htruthy, Bool.not_true, Bool.false_and, Bool.false_eq_true, if_false]
  simp only [verify, Program.request, Program.bind, Program.run, respond, Program.ofExcept,
    M.argon2.verify_hash, decide_eq_false (Ne.symm hne), Bool.not_false, if_true]

theorem serve_reset_known (hemail : email ≠ []) (h : w.db.findByEmail email = some user) :
    (w.serve M (.sendPasswordResetEmail email)).2.1 =
      (AuthService.getHost M).bind fun host ↦
        (w.sendMail (AuthService.resetMail email host w.randomBytes user.username)).map
          fun _ ↦ .done := by
  have hcreate : ∃ db', w.db.createPasswordResetToken user.id (M.sha256 w.randomBytes)
      (AuthService.addMinutes w.time 15) w.time = some db' := by
    have huser := (findByEmail_eq_some_iff.mp h).1
    rw [createPasswordResetToken, dif_pos (List.mem_map_of_mem huser)]
    exact ⟨_, rfl⟩
  obtain ⟨db', hcreate⟩ := hcreate
  simp only [serve, AuthRequest.serve, AuthService.sendPasswordResetEmail]
  simp only [UsersService.findByEmail, if_neg hemail, UsersRepository.findByEmail, Program.request,
    Program.bind_eq, Program.bind, Program.run, respond, h, Program.ofExcept,
    PasswordResetRepository.createPasswordResetToken, hcreate, Option.map_some, write]
  rcases AuthService.getHost M with e | host
  · rfl
  · simp only [Program.bind, Program.run, respond, Except.bind]
    cases w.sendMail (AuthService.resetMail email host w.randomBytes user.username) <;> rfl

end World

/-! ## Two worlds -/

theorem DiffersIn.findByEmail (h : DiffersIn M email password db db' user) :
    db.findByEmail email = none ∧ db'.findByEmail email = some user := by
  obtain ⟨l₁, l₂, -, hrows⟩ := h.known
  exact ⟨findByEmail_eq_none_iff.mpr h.unknown,
    findByEmail_eq_some_iff.mpr ⟨by simp [hrows], h.email_eq⟩⟩

/-- What a request for a reset comes to is the same exactly when the mail for the known user goes
out. -/
theorem DiffersIn.serve_reset_eq_iff (h : DiffersIn M email password db db' user)
    (hemail : email ≠ []) :
    (World.serve M (.sendPasswordResetEmail email) { w with db := db }).2.1 =
        (World.serve M (.sendPasswordResetEmail email) { w with db := db' }).2.1 ↔
      ∃ host, AuthService.getHost M = .ok host ∧
        w.sendMail (AuthService.resetMail email host w.randomBytes user.username) = .ok () := by
  rw [World.serve_reset_unknown hemail h.findByEmail.1,
    World.serve_reset_known hemail h.findByEmail.2]
  rcases AuthService.getHost M with e | host
  · simp [Except.bind]
  · simp only [Except.bind, Except.ok.injEq, exists_eq_left']
    cases w.sendMail (AuthService.resetMail email host w.randomBytes user.username) <;>
      simp [Except.map]

theorem DiffersIn.reveals (h : DiffersIn M dto.email dto.password db db' user) :
    ¬RevealsNothing M { w with db := db } { w with db := db' } dto := by
  rintro ⟨⟨e, hunknown, hknown⟩, -⟩
  obtain ⟨salt, password', hhash, hne⟩ := h.registered
  rw [World.serve_login_unknown h.findByEmail.1] at hunknown
  rw [World.serve_login_mismatch h.findByEmail.2 hhash hne, ← hunknown] at hknown
  cases hknown

/-- **A login always tells a registered address from an unknown one**, in whatever world, and a
request for a reset does unless the mail goes out. -/
theorem not_revealsNothing (h : DiffersIn M dto.email dto.password db db' user) :
    ¬RevealsNothing M { w with db := db } { w with db := db' } dto ∧
      ((World.serve M (.sendPasswordResetEmail dto.email) { w with db := db }).2.1 =
          (World.serve M (.sendPasswordResetEmail dto.email) { w with db := db' }).2.1 ↔
        ∃ host, AuthService.getHost M = .ok host ∧
          w.sendMail (AuthService.resetMail dto.email host w.randomBytes user.username) =
            .ok ()) :=
  ⟨h.reveals, h.serve_reset_eq_iff dto.email_ne⟩

/-! ## One user -/

/-- A login with another password. -/
def guess : AuthDto := ⟨[97], [97], [50], by decide, by decide, by decide⟩

theorem differsIn_registered : ∃ user, DiffersIn plainModule guess.email guess.password
    plainWorld.db registeredWorld.db user := by
  refine ⟨⟨1, [97], [97], some (plainModule.argon2.hash [4] [49]),
    registeredWorld.db.rtOf 1, [.USER]⟩, ?_⟩
  exact
    { unknown := by decide
      known := ⟨[], [], by decide, by decide⟩
      email_eq := rfl
      registered := ⟨_, _, rfl, by decide⟩
      accounts := by decide
      resetTokens := by decide }

/-- The address is registered in one of two worlds, and the errors of a login differ. -/
theorem login_reveals_registered : (∃ user, DiffersIn plainModule guess.email guess.password
      plainWorld.db registeredWorld.db user) ∧
    ¬RevealsNothing plainModule plainWorld { plainWorld with db := registeredWorld.db } guess := by
  obtain ⟨user, h⟩ := differsIn_registered
  exact ⟨⟨user, h⟩, h.reveals (w := plainWorld)⟩

theorem not_revealsNothing_registered :
    ¬RevealsNothing plainModule plainWorld { plainWorld with db := registeredWorld.db } guess ∧
      (plainWorld.serve plainModule (.sendPasswordResetEmail guess.email)).2.1 =
        (World.serve plainModule (.sendPasswordResetEmail guess.email)
          { plainWorld with db := registeredWorld.db }).2.1 := by
  obtain ⟨user, h⟩ := differsIn_registered
  obtain ⟨hreveals, hreset⟩ := not_revealsNothing (w := plainWorld) h
  exact ⟨hreveals, hreset.mpr ⟨[3], rfl, rfl⟩⟩

end JudgeIt
