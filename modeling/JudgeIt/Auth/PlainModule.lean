import JudgeIt.Auth.World
import JudgeIt.Data.Codec

/-!
# Libraries that keep their promises and hide nothing

The laws of `AuthModule` can be met, and concretely: a hash that shows its salt and the string, a
token that spells out the options, the payload and the second. Nothing the service computes depends
on more than the laws, so a run with these libraries is as good as any, and it can be evaluated.
-/

namespace JudgeIt

namespace Plain

/-- Numbers in unary. -/
def nat : Codec UInt16 ℕ := .nat 1 0 (by decide)

/-- Integers, the natural numbers first. -/
def int : Codec UInt16 ℤ :=
  (nat.pair nat).comap (fun n ↦ (n.toNat, (-n).toNat)) (fun p ↦ p.1 - p.2) fun n ↦ by simp

/-- Strings. -/
def string : Codec UInt16 JsString := .list nat .letter

/-- Roles. -/
def role : Codec UInt16 Role :=
  nat.comap (fun | .USER => 0 | .ADMIN => 1 | .MODERATOR => 2)
    (fun | 0 => .USER | 1 => .ADMIN | _ => .MODERATOR) fun r ↦ by cases r <;> rfl

/-- Payloads. -/
def payload : Codec UInt16 JwtPayload :=
  (int.pair (string.pair (.option nat (.list nat role)))).comap (fun p ↦ (p.sub, p.email, p.roles))
    (fun p ↦ ⟨p.1, p.2.1, p.2.2⟩) fun _ ↦ rfl

/-- Options. -/
def options : Codec UInt16 SignOptions :=
  (string.pair string).comap (fun o ↦ (o.secret, o.expiresIn)) (fun p ↦ ⟨p.1, p.2⟩) fun _ ↦ rfl

/-- Tokens. -/
def token : Codec UInt16 (SignOptions × JwtPayload × ℤ) := options.pair (payload.pair int)

/-- A hash is the salt and the string. -/
def argon2 : Argon2 where
  hash salt plain := string.enc salt ++ 36 :: plain
  verify hash plain :=
    match string.dec hash with
    | some (_, 36 :: plain') => .ok (decide (plain = plain'))
    | _ => .error (.Error "TypeError: pchstr must contain a $ as first char")
  hash_ne_nil salt plain := by simp
  verify_hash salt plain plain' := by
    rw [string.dec_enc]
    rfl

/-- A token is what it says. -/
def jwtService : JwtService where
  sign options payload iat := token.enc (options, payload, iat)
  verify secret jwt := (token.dec jwt).bind fun r ↦
    if r.1.1.secret = secret then some r.1.2 else none
  verify_sign options payload iat := by
    have hdec := token.dec_enc (options, payload, iat) []
    rw [List.append_nil] at hdec
    rw [hdec, Option.bind_some, if_pos rfl]

end Plain

/-- The service on these libraries. -/
def plainModule : AuthModule where
  argon2 := Plain.argon2
  jwtService := Plain.jwtService
  sha256 token := 35 :: token
  config :=
    { ACCESS_TOKEN_SECRET := [1]
      ACCESS_TOKEN_EXPIRATION := [15]
      REFRESH_TOKEN_SECRET := [2]
      REFRESH_TOKEN_EXPIRATION := [7]
      HOST := some [3] }

/-- A world with empty tables in which everything works. -/
def plainWorld : World where
  db := .empty
  time := 0
  salt := [4]
  randomBytes := [5]
  id := [6]
  sendMail _ := .ok ()

/-- A registration. -/
def registration : AuthDto := ⟨[97], [97], [49], by simp, by simp, by simp⟩

/-- The world after the registration. -/
def registeredWorld : World := (plainWorld.serve plainModule (.register registration)).2.2

/-- The refresh token a register request is answered with. -/
def registeredToken : JsString :=
  (tokensAt plainModule ⟨1, [97], some [.USER]⟩ 0 0).refresh_token

/-- The world after a mail with a reset token. -/
def mailedWorld : World :=
  (registeredWorld.serve plainModule (.sendPasswordResetEmail registration.email)).2.2

end JudgeIt
