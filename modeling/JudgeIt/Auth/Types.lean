import JudgeIt.Js.Text

/-!
# Users, sessions and what they are made with

The rows of the tables for users, the bodies of the requests that reach the authentication service,
the exceptions it throws, and the libraries it is built on. A library is a structure that carries
what its documentation promises: `argon2` accepts exactly what was hashed, and a token says what was
signed. Everything else about them is left open.
-/

namespace JudgeIt

/-- The roles. -/
inductive Role
  | USER | ADMIN | MODERATOR
  deriving DecidableEq

/-- A row of `User`. -/
structure User where
  id : ℤ
  email : JsString
  username : JsString
  hash : Option JsString
  hashedRt : Option JsString
  role : List Role
  deriving DecidableEq

/-- A row of `Account`. -/
structure Account where
  id : ℤ
  userId : ℤ
  provider : JsString
  providerAccountId : JsString
  accessToken : JsString
  refreshToken : JsString
  deriving DecidableEq

/-- A row of `PasswordResetToken`. -/
structure PasswordResetToken where
  id : ℤ
  userId : ℤ
  tokenHash : JsString
  createdAt : ℤ
  expiresAt : ℤ
  used : Bool
  deriving DecidableEq

/-! ## Requests -/

/-- The body of a register or login request. What the validation pipe lets through is not empty. -/
structure AuthDto where
  email : JsString
  username : JsString
  password : JsString
  email_ne : email ≠ []
  username_ne : username ≠ []
  password_ne : password ≠ []

/-- What an OAuth provider says about a user, as far as it is read. -/
structure GoogleProfileDto where
  id : JsString
  email : JsString
  firstName : Option JsString
  emailVerified : Bool

/-- The body of a password change. -/
structure ChangePasswordDto where
  oldPass : JsString
  newPass : JsString

/-- The body of a password reset. -/
structure ResetPasswordDto where
  newPassword : JsString
  token : JsString

/-- A mail, as the authentication service writes it. -/
structure MailDto where
  /-- The field `to`. -/
  recipient : JsString
  subject : JsString
  templateName : JsString
  username : JsString
  reset_link : JsString

/-- A pair of tokens. -/
structure Tokens where
  access_token : JsString
  refresh_token : JsString
  deriving DecidableEq

/-- What a token says. JSON drops a field that is `undefined`. -/
structure JwtPayload where
  sub : ℤ
  email : JsString
  roles : Option (List Role)
  deriving DecidableEq

/-- What is thrown: an exception of the framework with its kind and message, or any other error. -/
inductive Exception
  | BadRequestException (message : JsString)
  | UnauthorizedException (message : JsString)
  | ForbiddenException (message : JsString)
  | NotFoundException (message : JsString)
  | ConflictException (message : JsString)
  | Error (message : JsString)
  deriving DecidableEq

/-! ## Libraries -/

/-- The `argon2` package. -/
structure Argon2 where
  /-- The hash of a string under a salt. -/
  hash (salt plain : JsString) : JsString
  /-- Whether a string matches a hash; throws when the hash is none. -/
  verify (hash plain : JsString) : Except Exception Bool
  hash_ne_nil (salt plain : JsString) : hash salt plain ≠ []
  verify_hash (salt plain plain' : JsString) :
    verify (hash salt plain) plain' = .ok (decide (plain' = plain))

/-- The options of `signAsync`. -/
structure SignOptions where
  secret : JsString
  expiresIn : JsString
  deriving DecidableEq

/-- The `@nestjs/jwt` package. A token is a function of what is signed, the options, and the second
it is stamped with. -/
structure JwtService where
  sign (options : SignOptions) (payload : JwtPayload) (iat : ℤ) : JsString
  /-- What a token with a valid signature says, and when it was stamped. -/
  verify (secret token : JsString) : Option (JwtPayload × ℤ)
  verify_sign (options : SignOptions) (payload : JwtPayload) (iat : ℤ) :
    verify options.secret (sign options payload iat) = some (payload, iat)

/-- The configuration the service reads. -/
structure AuthConfig where
  ACCESS_TOKEN_SECRET : JsString
  ACCESS_TOKEN_EXPIRATION : JsString
  REFRESH_TOKEN_SECRET : JsString
  REFRESH_TOKEN_EXPIRATION : JsString
  HOST : Option JsString

/-- What the authentication service is constructed with, next to its repositories. -/
structure AuthModule where
  argon2 : Argon2
  jwtService : JwtService
  /-- `createHash('sha256').update(token).digest('hex')`. -/
  sha256 (token : JsString) : JsString
  config : AuthConfig

namespace AuthModule

variable (M : AuthModule)

/-- The options access tokens are signed with. -/
def accessOptions : SignOptions :=
  ⟨M.config.ACCESS_TOKEN_SECRET, M.config.ACCESS_TOKEN_EXPIRATION⟩

/-- The options refresh tokens are signed with. -/
def refreshOptions : SignOptions :=
  ⟨M.config.REFRESH_TOKEN_SECRET, M.config.REFRESH_TOKEN_EXPIRATION⟩

end AuthModule

/-- Whether a string that may be missing is truthy. -/
def JsString.truthy : Option JsString → Bool
  | some (_ :: _) => true
  | _ => false

theorem JsString.truthy_iff {s : Option JsString} : truthy s ↔ ∃ t, s = some t ∧ t ≠ [] := by
  rcases s with _ | _ | ⟨u, t⟩ <;> simp [truthy]

end JudgeIt
