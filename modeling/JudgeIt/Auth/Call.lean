import JudgeIt.Async.Monitor
import JudgeIt.Auth.Types

/-!
# What authentication calls

The calls the authentication service awaits: queries of the tables for users, the two slow halves of
`argon2`, the signing of tokens, and the mail transport; with them the sources of time and of
randomness, which it reads on the way. A hash is answered by the salt that was drawn, a signature by
the second it is stamped with, so that what is hashed or signed is computed by the program. Every
call to a table or a library may reject.
-/

namespace JudgeIt

open Async

/-- The calls of the authentication service. -/
inductive AuthCall
  /-- `argon2.hash(plain)`. -/
  | hash (plain : JsString)
  /-- `argon2.verify(hash, plain)`; the hash may be `null`. -/
  | verify (hash : Option JsString) (plain : JsString)
  /-- `jwtService.signAsync(payload, options)`. -/
  | signAsync (payload : JwtPayload) (options : SignOptions)
  /-- `Date.now()` and `new Date()`, in milliseconds. -/
  | now
  /-- `randomBytes(32).toString('hex')`. -/
  | randomBytes
  /-- `getId(4)`. -/
  | getId
  /-- `transporter.sendMail`. -/
  | sendMail (mail : MailDto)
  /-- `prisma.user.findUnique({ where: { email } })`. -/
  | findByEmail (email : JsString)
  /-- `prisma.user.findFirst({ where: { id } })`. -/
  | findById (id : ℤ)
  /-- `prisma.user.create`. -/
  | createUser (email username password : JsString)
  /-- `prisma.user.update` of `hashedRt`. -/
  | updateRtHash (userId : ℤ) (rt : JsString)
  /-- `prisma.user.updateMany` that sets `hashedRt` to `null`. -/
  | deleteRt (userId : ℤ)
  /-- `prisma.account.findUnique`, with the user. -/
  | findAccountByProvider (provider providerAccountId : JsString)
  /-- `prisma.account.update` of the tokens of the provider. -/
  | updateOauthAccount (id : ℤ) (accessToken refreshToken : JsString)
  /-- `prisma.account.create`. -/
  | linkOauthUser (userId : ℤ) (provider providerAccountId accessToken refreshToken : JsString)
  /-- `prisma.user.create`, with an account. -/
  | createOauthUser (email username provider providerAccountId accessToken refreshToken : JsString)
  /-- `prisma.user.findUnique({ where: { email } })`, with the accounts. -/
  | findWithAccounts (email : JsString)
  /-- `prisma.user.update` of `hash`. -/
  | changePassword (userId : ℤ) (newPass : JsString)
  /-- `prisma.passwordResetToken.create`. -/
  | createPasswordResetToken (userId : ℤ) (hashedToken : JsString) (expiresAt : ℤ)
  /-- `prisma.passwordResetToken.findFirst`, the newest. -/
  | getPasswordResetToken (token : JsString)
  /-- `prisma.passwordResetToken.update` of `used`. -/
  | markTokenUsed (id : ℤ)

/-- What each call is answered with. -/
@[reducible] def AuthCall.Res : AuthCall → Type
  | hash _ => Except Exception JsString
  | signAsync .. => Except Exception ℤ
  | now => ℤ
  | randomBytes | getId => JsString
  | findByEmail _ | findById _ => Except Exception (Option User)
  | createUser .. | createOauthUser .. => Except Exception User
  | findAccountByProvider .. => Except Exception (Option (Account × User))
  | findWithAccounts _ => Except Exception (Option (User × List Account))
  | getPasswordResetToken _ => Except Exception (Option PasswordResetToken)
  | verify .. | sendMail _ | updateRtHash .. | deleteRt _ | updateOauthAccount .. | linkOauthUser ..
  | changePassword .. | createPasswordResetToken .. | markTokenUsed _ => Except Exception Unit

instance AuthCall.nonempty_res : (op : AuthCall) → Nonempty op.Res
  | .hash _ | .signAsync .. | .findByEmail _ | .findById _ | .createUser .. | .createOauthUser ..
  | .findAccountByProvider .. | .findWithAccounts _ | .getPasswordResetToken _ | .verify ..
  | .sendMail _ | .updateRtHash .. | .deleteRt _ | .updateOauthAccount .. | .linkOauthUser ..
  | .changePassword .. | .createPasswordResetToken .. | .markTokenUsed _ => ⟨.error (.Error [])⟩
  | .now => ⟨(0 : ℤ)⟩
  | .randomBytes | .getId => ⟨([] : JsString)⟩

/-- A request to the authentication service, or a part of it. -/
abbrev Authing := Program AuthCall.Res Exception

end JudgeIt
