import JudgeIt.Auth.Service

/-!
# Strategies, the controller, and the requests

A passport strategy puts what it knows about the caller on the request, and decorators read single
fields of it by name. The JWT strategies put the payload of a token there, the Google strategy a row
of the table for users. The two have different fields, which is what `RequestUser` keeps.

`AuthRequest` lists what can be asked of the service and `serve` is the program of each. The four
requests that end in a session share their shape: `AuthRequest.identify` is what finds the user.
-/

namespace JudgeIt

open Async

/-! ## Who is calling -/

/-- `request.user`: the fields that are read, where they exist. -/
structure RequestUser where
  sub : Option ℤ := none
  id : Option ℤ := none
  userId : Option ℤ := none
  email : JsString
  roles : Option (List Role) := none
  refreshToken : Option JsString := none

/-- A row of `User` as `request.user`. Its roles are in a field called `role`. -/
def User.toRequestUser (user : User) : RequestUser where
  id := some user.id
  email := user.email

/-- `@GetCurrentUserId()`. -/
def getCurrentUserId (user : RequestUser) : Option ℤ := user.sub <|> user.id <|> user.userId

/-- `new ParseIntPipe()` on a number that may be `undefined`. -/
def parseIntPipe : Option ℤ → Except Exception ℤ
  | some n => .ok n
  | none => .error (.BadRequestException "Validation failed (numeric string is expected)")

/-- `AtStrategy.validate(payload)`. -/
def AtStrategy.validate (payload : JwtPayload) : Except Exception RequestUser :=
  if payload.sub = 0 ∨ payload.email = [] then
    .error (.UnauthorizedException "Invalid token payload")
  else
    .ok
      { sub := some payload.sub
        email := payload.email
        roles := some (payload.roles.getD [.USER]) }

/-- `RtStrategy.validate(req, payload)`, for the refresh cookie of the request. -/
def RtStrategy.validate (refreshToken : Option JsString) (payload : JwtPayload) :
    Except Exception RequestUser :=
  if !JsString.truthy refreshToken then
    .error (.UnauthorizedException "Refresh token not found")
  else if payload.sub = 0 ∨ payload.email = [] then
    .error (.UnauthorizedException "Invalid token payload")
  else
    .ok
      { sub := some payload.sub
        email := payload.email
        roles := payload.roles
        refreshToken := refreshToken }

/-! ## Google -/

/-- The profile passport hands over, as far as it is read. -/
structure Profile where
  id : JsString
  /-- The addresses, each with whether it is verified. -/
  emails : Option (List (JsString × Option Bool))
  givenName : Option JsString

/-- The profile as a `GoogleProfileDto`. -/
def Profile.toGoogleProfile (profile : Profile) : Except Exception GoogleProfileDto :=
  match profile.emails.bind (·.head?) with
  | none | some ([], _) => .error (.UnauthorizedException "Email not provided by Google")
  | some (email, verified) =>
    if !verified.getD false then .error (.UnauthorizedException "Email not verified by Google")
    else .ok ⟨profile.id, email, profile.givenName, verified.getD false⟩

/-- `GoogleStrategy.validate(accessToken, refreshToken, profile, done)`, for the user `done` is
called with. -/
def GoogleStrategy.validate (accessToken refreshToken : JsString) (profile : Profile) :
    Authing User := do
  let googleProfile ← Program.ofExcept profile.toGoogleProfile
  AuthService.validateOAuthLogin googleProfile accessToken refreshToken (.ofString "google")

/-- `googleAuthCallback(userId, email, roles, res)`, with its arguments read from `request.user`. -/
def googleAuthCallback (M : AuthModule) (user : RequestUser) : Authing Tokens := do
  let userId ← Program.ofExcept (parseIntPipe (getCurrentUserId user))
  AuthService.startSession M userId user.email user.roles

/-! ## Requests -/

/-- What can be asked of the authentication service. -/
inductive AuthRequest
  | register (dto : AuthDto)
  | login (dto : AuthDto)
  | logout (userId : ℤ)
  | refreshTokens (userId : ℤ) (rt : JsString)
  /-- `GET /auth/google/callback`. -/
  | googleLogin (profile : Profile) (accessToken refreshToken : JsString)
  /-- The service call any OAuth strategy makes. -/
  | validateOAuthLogin (googleProfile : GoogleProfileDto)
    (accessToken refreshToken provider : JsString)
  | changePassword (id : ℤ) (dto : ChangePasswordDto)
  | sendPasswordResetEmail (email : JsString)
  | resetPassword (dto : ResetPasswordDto)
  | resetToken (token : JsString)

/-- What a request is answered with. -/
inductive Reply
  | tokens (tokens : Tokens)
  | user (user : User)
  | message (message : JsString)
  | done
  deriving DecidableEq

/-- The program a request runs. -/
def AuthRequest.serve (M : AuthModule) : AuthRequest → Authing Reply
  | register dto => (AuthService.register M dto).bind fun tokens ↦ .pure (.tokens tokens)
  | login dto => (AuthService.login M dto).bind fun tokens ↦ .pure (.tokens tokens)
  | logout userId => (AuthService.logout userId).bind fun _ ↦ .pure .done
  | refreshTokens userId rt =>
    (AuthService.refreshTokens M userId rt).bind fun tokens ↦ .pure (.tokens tokens)
  | googleLogin profile accessToken refreshToken =>
    (GoogleStrategy.validate accessToken refreshToken profile).bind fun user ↦
      (googleAuthCallback M user.toRequestUser).bind fun tokens ↦ .pure (.tokens tokens)
  | validateOAuthLogin googleProfile accessToken refreshToken provider =>
    (AuthService.validateOAuthLogin googleProfile accessToken refreshToken provider).bind
      fun user ↦ .pure (.user user)
  | changePassword id dto => (AuthService.changePassword M id dto).bind fun _ ↦ .pure .done
  | sendPasswordResetEmail email =>
    (AuthService.sendPasswordResetEmail M email).bind fun _ ↦ .pure .done
  | resetPassword dto => (AuthService.resetPassword M dto).bind fun text ↦ .pure (.message text)
  | resetToken token => (AuthService.resetToken M token).bind fun text ↦ .pure (.message text)

/-- What finds the user of a request that ends in a session. -/
def AuthRequest.identify (M : AuthModule) : AuthRequest → Option (Authing User)
  | register dto => some (AuthService.registerUser M dto)
  | login dto => some (AuthService.checkCredentials M dto)
  | refreshTokens userId rt => some (AuthService.checkRefreshToken M userId rt)
  | googleLogin profile accessToken refreshToken =>
    some (GoogleStrategy.validate accessToken refreshToken profile)
  | logout _ | validateOAuthLogin .. | changePassword .. | sendPasswordResetEmail _
  | resetPassword _ | resetToken _ => none

/-- The roles a session is started with: a Google login reads a field its user does not have. -/
def AuthRequest.roles : AuthRequest → User → Option (List Role)
  | googleLogin .., user => user.toRequestUser.roles
  | _, user => some user.role

/-! ## Requests that end in a session -/

variable {M : AuthModule} {request : AuthRequest} {x : Authing User}
  {tr : List (Event AuthCall.Res)}

theorem AuthRequest.serve_eq (h : request.identify M = some x) :
    request.serve M = x.bind fun user ↦
      (AuthService.startSession M user.id user.email (request.roles user)).bind
        fun tokens ↦ .pure (.tokens tokens) := by
  cases request <;> cases h
  case register dto => exact Program.bind_assoc ..
  case login dto => exact Program.bind_assoc ..
  case refreshTokens userId rt => exact Program.bind_assoc ..
  case googleLogin profile accessToken refreshToken => rfl

/-- The request fails while its user is looked for, or the user is found and a session started. -/
theorem AuthRequest.eval_serve {out : Except Exception Reply} (h : request.identify M = some x)
    (heval : (request.serve M).Eval tr out) :
    (∃ e, x.Eval tr (.error e) ∧ out = .error e) ∨
    ∃ user tr₁ tr₂ out', tr = tr₁ ++ tr₂ ∧ x.Eval tr₁ (.ok user) ∧
      Session M ⟨user.id, user.email, request.roles user⟩ tr₂ out' ∧ out = out'.map .tokens := by
  rw [AuthRequest.serve_eq h] at heval
  rcases Program.eval_bind_iff.mp heval with ⟨e, he, rfl⟩ | ⟨user, tr₁, tr₂, rfl, h₁, h₂⟩
  · exact Or.inl ⟨e, he, rfl⟩
  · rcases Program.eval_bind_iff.mp h₂ with ⟨e, he, rfl⟩ | ⟨t, tr₃, tr₄, rfl, h₃, rfl, rfl⟩
    · exact Or.inr ⟨user, tr₁, tr₂, .error e, rfl, h₁, eval_startSession he, rfl⟩
    · rw [List.append_nil]
      exact Or.inr ⟨user, tr₁, tr₃, .ok t, rfl, h₁, eval_startSession h₃, rfl⟩

end JudgeIt
