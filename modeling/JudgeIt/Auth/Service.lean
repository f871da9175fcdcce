import JudgeIt.Auth.Call

/-!
# The authentication service

`UsersRepository`, `UsersService`, `PasswordResetRepository`, `AuthService`, and the part of the
Google strategy and of the controller that a Google login goes through. The repositories are calls;
everything above them is a program.

Register, login, refresh and the Google callback establish who the user is and then do the same:
two tokens are signed, the refresh token is hashed, and the hash is stored. `startSession` is that
common end, and what comes before it has a name of its own. `eval_startSession` is the account of
it the proofs use.
-/

namespace JudgeIt

open Async

/-! ## Repositories -/

namespace UsersRepository

/-- `createUser(email, username, password)`. -/
def createUser (email username password : JsString) : Authing User :=
  (Program.request (AuthCall.createUser email username password)).bind Program.ofExcept

/-- `findByEmail(email)`. -/
def findByEmail (email : JsString) : Authing (Option User) :=
  (Program.request (AuthCall.findByEmail email)).bind Program.ofExcept

/-- `findById(id)`. -/
def findById (id : ℤ) : Authing (Option User) :=
  (Program.request (AuthCall.findById id)).bind Program.ofExcept

/-- `updateRtHash(userId, rt)`. -/
def updateRtHash (userId : ℤ) (rt : JsString) : Authing Unit :=
  (Program.request (AuthCall.updateRtHash userId rt)).bind Program.ofExcept

/-- `deleteRt(userId)`. -/
def deleteRt (userId : ℤ) : Authing Unit :=
  (Program.request (AuthCall.deleteRt userId)).bind Program.ofExcept

/-- `findAccountByProvider(provider, providerAccountId)`. -/
def findAccountByProvider (provider providerAccountId : JsString) :
    Authing (Option (Account × User)) :=
  (Program.request (AuthCall.findAccountByProvider provider providerAccountId)).bind
    Program.ofExcept

/-- `updateOauthAccount(account, accessToken, refreshToken)`. -/
def updateOauthAccount (account : Account) (accessToken refreshToken : JsString) : Authing Unit :=
  (Program.request (AuthCall.updateOauthAccount account.id accessToken refreshToken)).bind
    Program.ofExcept

/-- `linkOauthUser(user, provider, googleProfile, accessToken, refreshToken)`. -/
def linkOauthUser (user : User) (provider : JsString) (googleProfile : GoogleProfileDto)
    (accessToken refreshToken : JsString) : Authing Unit :=
  (Program.request (AuthCall.linkOauthUser user.id provider googleProfile.id accessToken
    refreshToken)).bind Program.ofExcept

/-- `googleProfile.firstName + getId(4)`, where a missing name reads `undefined`. -/
def oauthUsername (googleProfile : GoogleProfileDto) (id : JsString) : JsString :=
  googleProfile.firstName.getD "undefined" ++ id

/-- `createOauthUser(provider, googleProfile, accessToken, refreshToken)`. -/
def createOauthUser (provider : JsString) (googleProfile : GoogleProfileDto)
    (accessToken refreshToken : JsString) : Authing User := do
  let id ← Program.request AuthCall.getId
  (Program.request (AuthCall.createOauthUser googleProfile.email (oauthUsername googleProfile id)
    provider googleProfile.id accessToken refreshToken)).bind Program.ofExcept

/-- `user?.accounts && user?.accounts.length`. -/
def someAccount : Option (User × List Account) → Bool
  | none => false
  | some (_, accounts) => !accounts.isEmpty

/-- `hasAccount(email)`. -/
def hasAccount (email : JsString) : Authing Bool :=
  (Program.request (AuthCall.findWithAccounts email)).bind fun
    | .error e => .throw e
    | .ok user => pure (someAccount user)

/-- `changePassword(userId, newPass)`. -/
def changePassword (userId : ℤ) (newPass : JsString) : Authing Unit :=
  (Program.request (AuthCall.changePassword userId newPass)).bind Program.ofExcept

end UsersRepository

namespace PasswordResetRepository

/-- `createPasswordResetToken(userId, hashedToken, expiresAt)`. -/
def createPasswordResetToken (userId : ℤ) (hashedToken : JsString) (expiresAt : ℤ) :
    Authing Unit :=
  (Program.request (AuthCall.createPasswordResetToken userId hashedToken expiresAt)).bind
    Program.ofExcept

/-- `getPasswordResetToken(token)`. -/
def getPasswordResetToken (token : JsString) : Authing (Option PasswordResetToken) :=
  (Program.request (AuthCall.getPasswordResetToken token)).bind Program.ofExcept

/-- `markTokenUsed(id)`. -/
def markTokenUsed (id : ℤ) : Authing Unit :=
  (Program.request (AuthCall.markTokenUsed id)).bind Program.ofExcept

end PasswordResetRepository

/-! ## The users service -/

namespace UsersService

/-- `createUser(dto)`, where the password of the body has been replaced by its hash. -/
def createUser (dto : AuthDto) (password : JsString) : Authing User :=
  (UsersRepository.findByEmail dto.email).bind fun
    | some _ => .throw (.ConflictException "User already exists")
    | none => UsersRepository.createUser dto.email dto.username password

/-- `findUser(dto)`, which throws instead of returning `null`. -/
def findUser (dto : AuthDto) : Authing (Option User) :=
  (UsersRepository.findByEmail dto.email).bind fun
    | none => .throw (.BadRequestException "User is not found")
    | some user => pure (some user)

/-- `findByEmail(email)`. -/
def findByEmail (email : JsString) : Authing (Option User) :=
  if email = [] then .throw (.BadRequestException "Email doesn't exist")
  else UsersRepository.findByEmail email

end UsersService

/-! ## Hashes and tokens -/

/-- `argon2.hash(plain)`. -/
def hash (M : AuthModule) (plain : JsString) : Authing JsString :=
  (Program.request (AuthCall.hash plain)).bind fun
    | .error e => .throw e
    | .ok salt => pure (M.argon2.hash salt plain)

/-- `argon2.verify(hash, plain)`, which throws for a hash that is `null`. -/
def verify (M : AuthModule) (hash : Option JsString) (plain : JsString) : Authing Bool :=
  (Program.request (AuthCall.verify hash plain)).bind fun
    | .error e => .throw e
    | .ok () =>
      match hash with
      | none => .throw (.Error "TypeError: pchstr must be a non-empty string")
      | some hash => Program.ofExcept (M.argon2.verify hash plain)

/-- `jwtService.signAsync(payload, options)`. -/
def signAsync (M : AuthModule) (payload : JwtPayload) (options : SignOptions) : Authing JsString :=
  (Program.request (AuthCall.signAsync payload options)).bind fun
    | .error e => .throw e
    | .ok iat => pure (M.jwtService.sign options payload iat)

namespace AuthService

variable (M : AuthModule)

/-- `updateRtHash(userId, rt)`. -/
def updateRtHash (userId : ℤ) (rt : JsString) : Authing Unit := do
  let hashedRt ← hash M rt
  UsersRepository.updateRtHash userId hashedRt

/-- `getTokens(userId, email, roles)`; `roles` may be `undefined`. -/
def getTokens (userId : ℤ) (email : JsString) (roles : Option (List Role)) : Authing Tokens := do
  let (at', rt) ← Program.both
    (signAsync M ⟨userId, email, roles⟩ M.accessOptions)
    (signAsync M ⟨userId, email, roles⟩ M.refreshOptions)
  pure ⟨at', rt⟩

/-- The last two awaits of register, login, refresh and the Google callback. -/
def startSession (userId : ℤ) (email : JsString) (roles : Option (List Role)) :
    Authing Tokens := do
  let tokens ← getTokens M userId email roles
  updateRtHash M userId tokens.refresh_token
  pure tokens

/-! ## Sessions -/

/-- `register(dto)` up to the session: the user is created. -/
def registerUser (dto : AuthDto) : Authing User := do
  let hashedPassword ← hash M dto.password
  UsersService.createUser dto hashedPassword

/-- `register(dto)`. -/
def register (dto : AuthDto) : Authing Tokens := do
  let user ← registerUser M dto
  startSession M user.id user.email (some user.role)

/-- `login(dto)` up to the session: the checks. -/
def checkCredentials (dto : AuthDto) : Authing User :=
  (UsersService.findUser dto).bind fun
    | none => .throw (.UnauthorizedException "Invalid credentials")
    | some user =>
      (UsersRepository.hasAccount dto.email).bind fun hasOAuthAccount ↦
        if !JsString.truthy user.hash && hasOAuthAccount then
          .throw (.ForbiddenException
            "This account uses OAuth login. Please sign in with Google.")
        else
          (verify M user.hash dto.password).bind fun isValidPassword ↦
            if !isValidPassword then .throw (.UnauthorizedException "Invalid credentials")
            else pure user

/-- `login(dto)`. -/
def login (dto : AuthDto) : Authing Tokens := do
  let user ← checkCredentials M dto
  startSession M user.id user.email (some user.role)

/-- `logout(userId)`. -/
def logout (userId : ℤ) : Authing Unit := UsersRepository.deleteRt userId

/-- `refreshTokens(userId, rt)` up to the session: the checks. -/
def checkRefreshToken (userId : ℤ) (rt : JsString) : Authing User :=
  (UsersRepository.findById userId).bind fun
    | none => .throw (.ForbiddenException "Access denied")
    | some user =>
      if !JsString.truthy user.hashedRt then .throw (.ForbiddenException "Access denied")
      else
        (verify M user.hashedRt rt).bind fun rtMatches ↦
          if !rtMatches then .throw (.ForbiddenException "Access denied")
          else pure user

/-- `refreshTokens(userId, rt)`. -/
def refreshTokens (userId : ℤ) (rt : JsString) : Authing Tokens := do
  let user ← checkRefreshToken M userId rt
  startSession M user.id user.email (some user.role)

/-- `validateOAuthLogin(googleProfile, accessToken, refreshToken, provider)`. -/
def validateOAuthLogin (googleProfile : GoogleProfileDto)
    (accessToken refreshToken provider : JsString) : Authing User :=
  if googleProfile.email = [] then
    .throw (.UnauthorizedException "Email not provided by OAuth provider")
  else if !googleProfile.emailVerified then
    .throw (.UnauthorizedException "Please verify your email with the OAuth provider first")
  else
    (UsersRepository.findAccountByProvider provider googleProfile.id).bind fun
      | some (account, user) => do
        UsersRepository.updateOauthAccount account accessToken refreshToken
        pure user
      | none =>
        (UsersService.findByEmail googleProfile.email).bind fun
          | some user => do
            UsersRepository.linkOauthUser user provider googleProfile accessToken refreshToken
            pure user
          | none =>
            UsersRepository.createOauthUser provider googleProfile accessToken refreshToken

/-! ## Passwords -/

/-- `changePassword(id, dto)`. -/
def changePassword (id : ℤ) (dto : ChangePasswordDto) : Authing Unit :=
  (UsersRepository.findById id).bind fun
    | none => .throw (.NotFoundException "User not found")
    | some user =>
      (UsersRepository.hasAccount user.email).bind fun hasOAuthAccount ↦
        if hasOAuthAccount then
          .throw (.BadRequestException "OAuth accounts cannot change password")
        else if !JsString.truthy user.hash then
          .throw (.BadRequestException "User has no password set")
        else
          (verify M user.hash dto.oldPass).bind fun isValidPass ↦
            if !isValidPass then .throw (.BadRequestException "Incorrect old password")
            else do
              let newPassHash ← hash M dto.newPass
              UsersRepository.changePassword user.id newPassHash

/-- `addMinutes(date, amount)`, in milliseconds. -/
def addMinutes (date amount : ℤ) : ℤ := date + amount * 60000

/-- The mail a reset token is sent with. -/
def resetMail (email host token username : JsString) : MailDto where
  recipient := email
  subject := "Password Reset"
  templateName := "reset_password"
  username := username
  reset_link := JsString.ofString "http://" ++ host ++
    JsString.ofString "/auth/reset-password/verify?token=" ++ token

/-- `config.getOrThrow('HOST')`. -/
def getHost : Except Exception JsString :=
  match M.config.HOST with
  | some host => .ok host
  | none => .error (.Error "TypeError: Configuration key \"HOST\" does not exist")

/-- `sendPasswordResetEmail(email)`. -/
def sendPasswordResetEmail (email : JsString) : Authing Unit :=
  (UsersService.findByEmail email).bind fun
    | none => pure ()
    | some user => do
      let token ← Program.request AuthCall.randomBytes
      let date ← Program.request AuthCall.now
      PasswordResetRepository.createPasswordResetToken user.id (M.sha256 token)
        (addMinutes date 15)
      let host ← Program.ofExcept (getHost M)
      (Program.request (AuthCall.sendMail (resetMail email host token user.username))).bind
        Program.ofExcept

/-- `validateResetToken(token)`, for the user and the number of the token. -/
def validateResetToken (token : JsString) : Authing (ℤ × ℤ) :=
  (PasswordResetRepository.getPasswordResetToken (M.sha256 token)).bind fun
    | none => .throw (.ForbiddenException "Invalid or expired token")
    | some tokenRecord =>
      if tokenRecord.used then .throw (.ForbiddenException "Token has already been used")
      else
        (Program.request AuthCall.now).bind fun date ↦
          if tokenRecord.expiresAt < date then .throw (.ForbiddenException "Token has expired")
          else pure (tokenRecord.userId, tokenRecord.id)

/-- `resetPassword(dto)`, for its message. -/
def resetPassword (dto : ResetPasswordDto) : Authing JsString := do
  let (userId, tokenId) ← validateResetToken M dto.token
  if dto.newPassword.length < 8 then
    .throw (.BadRequestException "Password must be at least 8 characters")
  else do
    let hashedPassword ← hash M dto.newPassword
    UsersRepository.changePassword userId hashedPassword
    PasswordResetRepository.markTokenUsed tokenId
    pure (.ofString "Password reset successfully")

/-- `resetToken(token)`. -/
def resetToken (token : JsString) : Authing JsString := do
  let _ ← validateResetToken M token
  pure token

end AuthService

/-! ## Traces of the parts -/

section Eval

variable {M : AuthModule} {plain rt : JsString} {id : ℤ} {email : JsString}
  {roles : Option (List Role)} {payload : JwtPayload} {options : SignOptions}
  {tr : List (Event AuthCall.Res)}

theorem eval_hash_iff {out : Except Exception JsString} : (hash M plain).Eval tr out ↔
    ∃ r, tr = [⟨.hash plain, r⟩] ∧ out = r.map fun salt ↦ M.argon2.hash salt plain := by
  rw [hash, Program.eval_request_bind_iff]
  constructor
  · rintro ⟨r, tr, rfl, h⟩
    rcases r with e | salt
    · exact ⟨.error e, by rw [h.1], h.2⟩
    · exact ⟨.ok salt, by rw [h.1], h.2⟩
  · rintro ⟨r, rfl, rfl⟩
    refine ⟨r, [], rfl, ?_⟩
    rcases r with e | salt <;> exact ⟨rfl, rfl⟩

theorem eval_signAsync_iff {out : Except Exception JsString} :
    (signAsync M payload options).Eval tr out ↔ ∃ r, tr = [⟨.signAsync payload options, r⟩] ∧
      out = r.map fun iat ↦ M.jwtService.sign options payload iat := by
  rw [signAsync, Program.eval_request_bind_iff]
  constructor
  · rintro ⟨r, tr, rfl, h⟩
    rcases r with e | iat
    · exact ⟨.error e, by rw [h.1], h.2⟩
    · exact ⟨.ok iat, by rw [h.1], h.2⟩
  · rintro ⟨r, rfl, rfl⟩
    refine ⟨r, [], rfl, ?_⟩
    rcases r with e | iat <;> exact ⟨rfl, rfl⟩

/-- What `argon2.verify` comes to, unless it rejects for reasons of its own. -/
def verifyResult (M : AuthModule) (hash : Option JsString) (plain : JsString) :
    Except Exception Bool :=
  match hash with
  | none => .error (.Error "TypeError: pchstr must be a non-empty string")
  | some hash => M.argon2.verify hash plain

theorem eval_verify_iff {hash : Option JsString} {out : Except Exception Bool} :
    (verify M hash plain).Eval tr out ↔ ∃ r, tr = [⟨.verify hash plain, r⟩] ∧
      out = r.bind fun _ ↦ verifyResult M hash plain := by
  rw [JudgeIt.verify.eq_def, Program.eval_request_bind_iff]
  constructor
  · rintro ⟨r, tr, rfl, h⟩
    rcases r with e | _
    · exact ⟨.error e, by rw [h.1], h.2⟩
    · refine ⟨.ok (), ?_⟩
      rcases hash with _ | hash
      · exact ⟨by rw [h.1], h.2⟩
      · obtain ⟨rfl, rfl⟩ := Program.eval_ofExcept_iff.mp h
        exact ⟨rfl, rfl⟩
  · rintro ⟨r, rfl, rfl⟩
    refine ⟨r, [], rfl, ?_⟩
    rcases r with e | _
    · exact ⟨rfl, rfl⟩
    · rcases hash with _ | hash
      · exact ⟨rfl, rfl⟩
      · exact Program.eval_ofExcept_iff.mpr ⟨rfl, rfl⟩

/-- What the checks of a login come to, call by call. -/
inductive Credentials (M : AuthModule) (dto : AuthDto) :
    List (Event AuthCall.Res) → Except Exception User → Prop
  /-- The user cannot be looked up. -/
  | failed (e : Exception) : Credentials M dto [⟨.findByEmail dto.email, .error e⟩] (.error e)
  /-- There is no such user. -/
  | unknown : Credentials M dto [⟨.findByEmail dto.email, .ok none⟩]
      (.error (.BadRequestException "User is not found"))
  /-- The accounts of the user cannot be looked up. -/
  | unread (user : User) (e : Exception) : Credentials M dto
      [⟨.findByEmail dto.email, .ok (some user)⟩, ⟨.findWithAccounts dto.email, .error e⟩]
      (.error e)
  /-- The user has no password, but an account with a provider. -/
  | oauth {user : User} {found : Option (User × List Account)} :
      JsString.truthy user.hash = false → UsersRepository.someAccount found = true →
      Credentials M dto
        [⟨.findByEmail dto.email, .ok (some user)⟩, ⟨.findWithAccounts dto.email, .ok found⟩]
        (.error (.ForbiddenException
          "This account uses OAuth login. Please sign in with Google."))
  /-- The password is verified. -/
  | verified {user : User} {found : Option (User × List Account)} (r : Except Exception Unit) :
      (JsString.truthy user.hash = false → UsersRepository.someAccount found = false) →
      Credentials M dto
        [⟨.findByEmail dto.email, .ok (some user)⟩, ⟨.findWithAccounts dto.email, .ok found⟩,
          ⟨.verify user.hash dto.password, r⟩]
        ((r.bind fun _ ↦ verifyResult M user.hash dto.password).bind fun isValidPassword ↦
          if !isValidPassword then .error (.UnauthorizedException "Invalid credentials")
          else .ok user)

theorem eval_checkCredentials {dto : AuthDto} {out : Except Exception User}
    (h : (AuthService.checkCredentials M dto).Eval tr out) : Credentials M dto tr out := by
  obtain ⟨r, tr, rfl, h⟩ := h
  rcases r with e | _ | user
  · obtain ⟨rfl, rfl⟩ := h
    exact .failed e
  · obtain ⟨rfl, rfl⟩ := h
    exact .unknown
  obtain ⟨r, tr, rfl, h⟩ := h
  rcases r with e | found
  · obtain ⟨rfl, rfl⟩ := h
    exact .unread user e
  replace h : Program.Eval (if !JsString.truthy user.hash && UsersRepository.someAccount found then
      .throw (.ForbiddenException "This account uses OAuth login. Please sign in with Google.")
    else (verify M user.hash dto.password).bind fun isValidPassword ↦
      if !isValidPassword then .throw (.UnauthorizedException "Invalid credentials")
      else .pure user) tr out := h
  rcases Program.eval_ite h with ⟨hoauth, rfl, rfl⟩ | ⟨hnot, h⟩
  · rw [Bool.and_eq_true, Bool.not_eq_true'] at hoauth
    exact .oauth hoauth.1 hoauth.2
  · have hcond : JsString.truthy user.hash = false →
        UsersRepository.someAccount found = false := by
      intro hhash
      simpa [hhash] using hnot
    rcases Program.eval_bind_iff.mp h with ⟨e, he, rfl⟩ | ⟨valid, tr₁, tr₂, rfl, hv, hend⟩
    · obtain ⟨r, rfl, hr⟩ := eval_verify_iff.mp he
      have hver : Credentials M dto _ _ := .verified r hcond
      rwa [← hr] at hver
    · obtain ⟨r, rfl, hr⟩ := eval_verify_iff.mp hv
      have hver : Credentials M dto _ _ := .verified r hcond
      rw [← hr] at hver
      rcases valid with _ | _
      · obtain ⟨rfl, rfl⟩ := hend
        exact hver
      · obtain ⟨rfl, rfl⟩ := hend
        exact hver

/-- The tokens for a payload, signed in the given seconds. -/
def tokensAt (M : AuthModule) (payload : JwtPayload) (iat iat' : ℤ) : Tokens where
  access_token := M.jwtService.sign M.accessOptions payload iat
  refresh_token := M.jwtService.sign M.refreshOptions payload iat'

/-- How starting a session for a payload can go. -/
inductive Session (M : AuthModule) (payload : JwtPayload) :
    List (Event AuthCall.Res) → Except Exception Tokens → Prop
  /-- A token cannot be signed. -/
  | unsigned {r r' : Except Exception ℤ} {e : Exception} : r = .error e ∨ r' = .error e →
      Session M payload [⟨.signAsync payload M.accessOptions, r⟩,
        ⟨.signAsync payload M.refreshOptions, r'⟩] (.error e)
  /-- The refresh token cannot be hashed. -/
  | unhashed (iat iat' : ℤ) (e : Exception) : Session M payload
      [⟨.signAsync payload M.accessOptions, .ok iat⟩,
        ⟨.signAsync payload M.refreshOptions, .ok iat'⟩,
        ⟨.hash (tokensAt M payload iat iat').refresh_token, .error e⟩] (.error e)
  /-- The hash of the refresh token is sent to the database. -/
  | hashed (iat iat' : ℤ) (salt : JsString) (r : Except Exception Unit) : Session M payload
      [⟨.signAsync payload M.accessOptions, .ok iat⟩,
        ⟨.signAsync payload M.refreshOptions, .ok iat'⟩,
        ⟨.hash (tokensAt M payload iat iat').refresh_token, .ok salt⟩,
        ⟨.updateRtHash payload.sub
          (M.argon2.hash salt (tokensAt M payload iat iat').refresh_token), r⟩]
      (r.map fun _ ↦ tokensAt M payload iat iat')

theorem eval_getTokens {out : Except Exception Tokens}
    (h : (AuthService.getTokens M id email roles).Eval tr out) : ∃ r r',
    tr = [⟨.signAsync ⟨id, email, roles⟩ M.accessOptions, r⟩,
      ⟨.signAsync ⟨id, email, roles⟩ M.refreshOptions, r'⟩] ∧
    ((∃ e, out = .error e ∧ (r = .error e ∨ r' = .error e)) ∨
      ∃ iat iat', r = .ok iat ∧ r' = .ok iat' ∧
        out = .ok (tokensAt M ⟨id, email, roles⟩ iat iat')) := by
  rcases Program.eval_bind_iff.mp h with ⟨e, he, rfl⟩ | ⟨t, tr₁, tr₂, rfl, ht, rfl, rfl⟩
  · obtain ⟨tr₁, tr₂, a, b, rfl, ha, hb, hab⟩ := Program.Eval.both_error he
    obtain ⟨r, rfl, rfl⟩ := eval_signAsync_iff.mp ha
    obtain ⟨r', rfl, rfl⟩ := eval_signAsync_iff.mp hb
    refine ⟨r, r', rfl, Or.inl ⟨e, rfl, ?_⟩⟩
    rcases r with _ | _ <;> rcases r' with _ | _ <;> simp [Except.map] at hab ⊢ <;> exact hab
  · obtain ⟨tr₁, tr₂, rfl, ha, hb⟩ := Program.eval_both_ok_iff.mp ht
    obtain ⟨r, rfl, hr⟩ := eval_signAsync_iff.mp ha
    obtain ⟨r', rfl, hr'⟩ := eval_signAsync_iff.mp hb
    rcases r with _ | iat
    · cases hr
    rcases r' with _ | iat'
    · cases hr'
    rw [Except.map, Except.ok.injEq] at hr hr'
    exact ⟨.ok iat, .ok iat', rfl, Or.inr ⟨iat, iat', rfl, rfl, by rw [hr, hr']; rfl⟩⟩

theorem eval_updateRtHash {out : Except Exception Unit}
    (h : (AuthService.updateRtHash M id rt).Eval tr out) :
    (∃ e, tr = [⟨.hash rt, .error e⟩] ∧ out = .error e) ∨
    ∃ salt, tr = [⟨.hash rt, .ok salt⟩, ⟨.updateRtHash id (M.argon2.hash salt rt), out⟩] := by
  rcases Program.eval_bind_iff.mp h with ⟨e, he, rfl⟩ | ⟨h', tr₁, tr₂, rfl, hh, hu⟩
  · obtain ⟨r, rfl, hr⟩ := eval_hash_iff.mp he
    rcases r with e' | salt
    · cases hr
      exact Or.inl ⟨_, rfl, rfl⟩
    · cases hr
  · obtain ⟨r, rfl, hr⟩ := eval_hash_iff.mp hh
    rcases r with e' | salt
    · cases hr
    · cases hr
      obtain ⟨r, tr, rfl, hr⟩ := hu
      rcases r with e' | _
      · exact Or.inr ⟨salt, by rw [hr.1, hr.2]; rfl⟩
      · exact Or.inr ⟨salt, by rw [hr.1, hr.2]; rfl⟩

theorem eval_startSession {out : Except Exception Tokens}
    (heval : (AuthService.startSession M id email roles).Eval tr out) :
    Session M ⟨id, email, roles⟩ tr out := by
  rcases Program.eval_bind_iff.mp heval with ⟨e, he, rfl⟩ | ⟨t, tr₁, tr₂, rfl, ht, h₂⟩
  · obtain ⟨r, r', rfl, ⟨e', he', hr⟩ | ⟨_, _, _, _, he'⟩⟩ := eval_getTokens he
    · cases he'
      exact .unsigned hr
    · cases he'
  clear heval
  obtain ⟨r, r', rfl, ⟨e', he', _⟩ | ⟨iat, iat', rfl, rfl, hout⟩⟩ := eval_getTokens ht
  · cases he'
  cases hout
  rcases Program.eval_bind_iff.mp h₂ with ⟨e, he, rfl⟩ | ⟨_, tr₃, tr₄, rfl, hu, rfl, rfl⟩
  · rcases eval_updateRtHash he with ⟨e', rfl, he'⟩ | ⟨salt, rfl⟩
    · cases he'
      exact .unhashed iat iat' _
    · exact .hashed iat iat' salt (.error e)
  · rcases eval_updateRtHash hu with ⟨e', -, he'⟩ | ⟨salt, rfl⟩
    · cases he'
    · exact .hashed iat iat' salt (.ok ())

end Eval

end JudgeIt
