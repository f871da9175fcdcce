import JudgeIt.Auth.Controller

/-!
# Which calls a request makes

Three calls need care. The stored hash of a refresh token is written where a session starts and
where it ends, and by nothing that a request does before it has found its user, nor by any request
about passwords. `argon2.verify` is handed a column that may be `null`: everything but `login` looks
at the column first. And only asking for a mail creates a reset token.
-/

namespace JudgeIt

open Async Program

/-- The call does not write the stored hash of a refresh token. -/
def AuthCall.keepsRt : AuthCall → Bool
  | updateRtHash .. | deleteRt _ => false
  | _ => true

/-- The call is no verification against `null`. -/
def AuthCall.verifiesHash : AuthCall → Bool
  | verify none _ => false
  | _ => true

/-- The call creates no reset token. -/
def AuthCall.createsNone : AuthCall → Bool
  | createPasswordResetToken .. => false
  | _ => true

theorem verifiesHash_of_truthy {hash : Option JsString} {plain : JsString}
    (h : JsString.truthy hash = true) :
    ((AuthCall.verify hash plain).keepsRt && (AuthCall.verify hash plain).verifiesHash) = true := by
  obtain ⟨hash, rfl, -⟩ := JsString.truthy_iff.mp h
  rfl

/-! ## Programs that make calls of one kind only -/

section Keeps

variable {P : AuthCall → Prop} [DecidablePred P] {M : AuthModule} {α : Type} {plain : JsString}

theorem keeps_call {op : AuthCall} {f : op.Res → Authing α} (h : P op)
    (hf : ∀ r, (f r).Keeps (only P) ()) : ((request op).bind f).Keeps (only P) () :=
  Keeps.bind (keeps_only_request h) hf

theorem keeps_hash (h : P (.hash plain)) : (hash M plain).Keeps (only P) () :=
  keeps_call h fun
    | .error e => keeps_throw e
    | .ok _ => keeps_pure _

theorem keeps_verify {hash : Option JsString} (h : P (.verify hash plain)) :
    (verify M hash plain).Keeps (only P) () :=
  keeps_call h fun
    | .error e => keeps_throw e
    | .ok _ => by
      cases hash with
      | none => exact keeps_throw _
      | some hash => exact keeps_ofExcept _

theorem keeps_hasAccount {email : JsString} (h : P (.findWithAccounts email)) :
    (UsersRepository.hasAccount email).Keeps (only P) () :=
  keeps_call h fun
    | .error e => keeps_throw e
    | .ok _ => keeps_pure _

/-- A password change makes five kinds of calls. -/
theorem keeps_changePassword {id : ℤ} {dto : ChangePasswordDto} (hfind : P (.findById id))
    (haccounts : ∀ email, P (.findWithAccounts email))
    (hverify : ∀ hash, JsString.truthy hash = true → P (.verify hash dto.oldPass))
    (hhash : P (.hash dto.newPass)) (hchange : ∀ id hash, P (.changePassword id hash)) :
    (AuthService.changePassword M id dto).Keeps (only P) () := by
  refine Keeps.bind (keeps_call hfind keeps_ofExcept) fun
    | none => keeps_throw _
    | some user => Keeps.bind (keeps_hasAccount (haccounts _)) fun hasOAuthAccount ↦ ?_
  split
  · exact keeps_throw _
  split
  · exact keeps_throw _
  · next h =>
    refine (keeps_verify (hverify _ (by simpa using h))).bind fun isValidPass ↦ ?_
    split
    · exact keeps_throw _
    · exact (keeps_hash hhash).bind fun _ ↦ keeps_call (hchange _ _) keeps_ofExcept

end Keeps

/-! ## Careful programs -/

/-- A part of a request that makes neither of the first two calls. -/
def Careful {α : Type} (x : Authing α) : Prop :=
  x.Keeps (only fun op : AuthCall ↦ (op.keepsRt && op.verifiesHash) = true) ()

section Careful

variable {M : AuthModule} {α : Type} {x : Authing α} {tr : List (Event AuthCall.Res)}
  {out : Except Exception α}

theorem Careful.keepsRt (h : Careful x) (heval : x.Eval tr out) :
    ∀ e ∈ tr, e.1.keepsRt = true :=
  fun e he ↦ (Bool.and_eq_true_iff.mp (h.forall_mem heval e he)).1

theorem Careful.verifiesHash (h : Careful x) (heval : x.Eval tr out) :
    ∀ e ∈ tr, e.1.verifiesHash = true :=
  fun e he ↦ (Bool.and_eq_true_iff.mp (h.forall_mem heval e he)).2

theorem Careful.bind {β : Type} {f : α → Authing β} (hx : Careful x) (hf : ∀ a, Careful (f a)) :
    Careful (x.bind f) := Keeps.bind hx hf

theorem careful_pure (a : α) : Careful (.pure a) := keeps_pure a

theorem careful_throw (e : Exception) : Careful (.throw e : Authing α) := keeps_throw e

theorem careful_ofExcept (a : Except Exception α) : Careful (ofExcept a) := keeps_ofExcept a

theorem careful_call {op : AuthCall} {f : op.Res → Authing α}
    (h : (op.keepsRt && op.verifiesHash) = true) (hf : ∀ r, Careful (f r)) :
    Careful ((request op).bind f) :=
  keeps_call (P := fun op : AuthCall ↦ (op.keepsRt && op.verifiesHash) = true) h hf

theorem careful_hash (plain : JsString) : Careful (hash M plain) :=
  keeps_hash (P := fun op : AuthCall ↦ (op.keepsRt && op.verifiesHash) = true) rfl

theorem careful_verify {hash : Option JsString} {plain : JsString}
    (h : JsString.truthy hash = true) : Careful (verify M hash plain) :=
  keeps_verify (P := fun op : AuthCall ↦ (op.keepsRt && op.verifiesHash) = true)
    (verifiesHash_of_truthy h)

/-! ## Finding the user -/

theorem careful_findByEmail (email : JsString) : Careful (UsersService.findByEmail email) := by
  rw [UsersService.findByEmail]
  split
  · exact careful_throw _
  · exact careful_call rfl careful_ofExcept

theorem careful_registerUser (dto : AuthDto) : Careful (AuthService.registerUser M dto) :=
  (careful_hash _).bind fun _ ↦ (careful_call rfl careful_ofExcept).bind fun
    | some _ => careful_throw _
    | none => careful_call rfl careful_ofExcept

theorem careful_checkRefreshToken (userId : ℤ) (rt : JsString) :
    Careful (AuthService.checkRefreshToken M userId rt) :=
  (careful_call rfl careful_ofExcept).bind fun
    | none => careful_throw _
    | some user => by
      dsimp only
      split
      · exact careful_throw _
      · next h =>
        refine (careful_verify (by simpa using h)).bind fun rtMatches ↦ ?_
        split
        · exact careful_throw _
        · exact careful_pure _

theorem careful_validateOAuthLogin (googleProfile : GoogleProfileDto)
    (accessToken refreshToken provider : JsString) : Careful
      (AuthService.validateOAuthLogin googleProfile accessToken refreshToken provider) := by
  rw [AuthService.validateOAuthLogin]
  split
  · exact careful_throw _
  split
  · exact careful_throw _
  refine (careful_call rfl careful_ofExcept).bind fun
    | some _ => (careful_call rfl careful_ofExcept).bind fun _ ↦ careful_pure _
    | none => (careful_findByEmail _).bind fun
      | some _ => (careful_call rfl careful_ofExcept).bind fun _ ↦ careful_pure _
      | none => careful_call rfl fun _ ↦ careful_call rfl careful_ofExcept

theorem careful_googleValidate (accessToken refreshToken : JsString) (profile : Profile) :
    Careful (GoogleStrategy.validate accessToken refreshToken profile) :=
  (careful_ofExcept _).bind fun _ ↦ careful_validateOAuthLogin _ _ _ _

/-! ## Passwords -/

theorem careful_changePassword (id : ℤ) (dto : ChangePasswordDto) :
    Careful (AuthService.changePassword M id dto) :=
  keeps_changePassword (P := fun op : AuthCall ↦ (op.keepsRt && op.verifiesHash) = true) rfl
    (fun _ ↦ rfl) (fun _ ↦ verifiesHash_of_truthy) rfl fun _ _ ↦ rfl

theorem careful_sendPasswordResetEmail (email : JsString) :
    Careful (AuthService.sendPasswordResetEmail M email) :=
  (careful_findByEmail _).bind fun
    | none => careful_pure _
    | some _ => careful_call rfl fun _ ↦ careful_call rfl fun _ ↦
      (careful_call rfl careful_ofExcept).bind fun _ ↦ (careful_ofExcept _).bind fun _ ↦
        careful_call rfl careful_ofExcept

theorem careful_validateResetToken (token : JsString) :
    Careful (AuthService.validateResetToken M token) :=
  (careful_call rfl careful_ofExcept).bind fun
    | none => careful_throw _
    | some tokenRecord => by
      dsimp only
      split
      · exact careful_throw _
      · refine careful_call rfl fun date ↦ ?_
        split
        · exact careful_throw _
        · exact careful_pure _

theorem careful_resetPassword (dto : ResetPasswordDto) :
    Careful (AuthService.resetPassword M dto) :=
  (careful_validateResetToken _).bind fun _ ↦ by
    dsimp only
    split
    · exact careful_throw _
    · exact (careful_hash _).bind fun _ ↦ (careful_call rfl careful_ofExcept).bind fun _ ↦
        (careful_call rfl careful_ofExcept).bind fun _ ↦ careful_pure _

theorem careful_resetToken (token : JsString) : Careful (AuthService.resetToken M token) :=
  (careful_validateResetToken _).bind fun _ ↦ careful_pure _

end Careful

/-! ## Whole requests -/

section Serve

variable {M : AuthModule} {request : AuthRequest} {x : Authing User} {payload : JwtPayload}
  {tr : List (Event AuthCall.Res)}

theorem careful_identify (h : request.identify M = some x)
    (hlogin : ∀ dto, request ≠ .login dto) : Careful x := by
  cases request <;> cases h
  case register dto => exact careful_registerUser dto
  case login dto => exact absurd rfl (hlogin dto)
  case refreshTokens userId rt => exact careful_checkRefreshToken userId rt
  case googleLogin profile accessToken refreshToken =>
    exact careful_googleValidate accessToken refreshToken profile

theorem careful_serve (h : request.identify M = none) (hlogout : ∀ id, request ≠ .logout id) :
    Careful (request.serve M) := by
  cases request <;> cases h
  case logout id => exact absurd rfl (hlogout id)
  case validateOAuthLogin googleProfile accessToken refreshToken provider =>
    exact (careful_validateOAuthLogin _ _ _ _).bind fun _ ↦ careful_pure _
  case changePassword id dto => exact (careful_changePassword id dto).bind fun _ ↦ careful_pure _
  case sendPasswordResetEmail email =>
    exact (careful_sendPasswordResetEmail email).bind fun _ ↦ careful_pure _
  case resetPassword dto => exact (careful_resetPassword dto).bind fun _ ↦ careful_pure _
  case resetToken token => exact (careful_resetToken token).bind fun _ ↦ careful_pure _

theorem Credentials.keepsRt {dto : AuthDto} {out : Except Exception User}
    (h : Credentials M dto tr out) : ∀ e ∈ tr, e.1.keepsRt = true := by
  cases h <;> simp [AuthCall.keepsRt]

theorem keepsRt_of_identify (h : request.identify M = some x) {out : Except Exception User}
    (heval : x.Eval tr out) : ∀ e ∈ tr, e.1.keepsRt = true := by
  by_cases hlogin : ∃ dto, request = .login dto
  · obtain ⟨dto, rfl⟩ := hlogin
    cases h
    exact (eval_checkCredentials heval).keepsRt
  · push Not at hlogin
    exact (careful_identify h hlogin).keepsRt heval

theorem Session.verifiesHash {out : Except Exception Tokens} (h : Session M payload tr out) :
    ∀ e ∈ tr, e.1.verifiesHash = true := by
  cases h <;> simp [AuthCall.verifiesHash]

/-- A comparison with `null` is for a user without a password, after a lookup that showed no
account. -/
theorem Credentials.of_verifies_null {dto : AuthDto} {out : Except Exception User}
    (h : Credentials M dto tr out) {e : Event AuthCall.Res} (he : e ∈ tr)
    (hnull : ¬e.1.verifiesHash = true) : ∃ user found rest,
      tr = ⟨.findByEmail dto.email, .ok (some user)⟩ ::
        ⟨.findWithAccounts dto.email, .ok found⟩ :: rest ∧
      user.hash = none ∧ UsersRepository.someAccount found = false := by
  cases h with
  | failed _ | unknown =>
    rw [List.mem_singleton.mp he] at hnull
    exact absurd rfl hnull
  | unread _ _ | oauth _ _ =>
    rcases List.mem_pair.mp he with rfl | rfl <;> exact absurd rfl hnull
  | @verified user found r hcond =>
    simp only [List.mem_cons, List.not_mem_nil, or_false] at he
    rcases he with rfl | rfl | rfl
    · exact absurd rfl hnull
    · exact absurd rfl hnull
    · have hhash : user.hash = none := by
        cases hu : user.hash with
        | none => rfl
        | some h => rw [hu] at hnull; exact absurd rfl hnull
      exact ⟨user, found, _, rfl, hhash, hcond (by rw [hhash]; rfl)⟩

/-- Only a login can compare with `null`, and only in that case. -/
theorem login_of_verifies_null {out : Except Exception Reply} (h : (request.serve M).Eval tr out)
    {e : Event AuthCall.Res} (he : e ∈ tr) (hnull : ¬e.1.verifiesHash = true) :
    ∃ dto user found rest, request = .login dto ∧
      tr = ⟨.findByEmail dto.email, .ok (some user)⟩ ::
        ⟨.findWithAccounts dto.email, .ok found⟩ :: rest ∧
      user.hash = none ∧ UsersRepository.someAccount found = false := by
  cases hid : request.identify M with
  | none =>
    by_cases hlogout : ∃ id, request = .logout id
    · obtain ⟨id, rfl⟩ := hlogout
      obtain ⟨r, tr, rfl, h⟩ := h
      rcases r with err | _ <;> obtain ⟨rfl, -⟩ := h <;> rw [List.mem_singleton.mp he] at hnull <;>
        exact absurd rfl hnull
    · push Not at hlogout
      exact absurd ((careful_serve hid hlogout).verifiesHash h e he) hnull
  | some x =>
    by_cases hlogin : ∃ dto, request = .login dto
    · obtain ⟨dto, rfl⟩ := hlogin
      cases hid
      rcases AuthRequest.eval_serve rfl h with ⟨err, hx, -⟩ |
        ⟨user, tr₁, tr₂, out', rfl, hx, hsession, -⟩
      · obtain ⟨user, found, rest, htr, hrest⟩ :=
          (eval_checkCredentials hx).of_verifies_null he hnull
        exact ⟨dto, user, found, rest, rfl, htr, hrest⟩
      · rcases List.mem_append.mp he with he | he
        -- the comparison belongs to the check of the password, not to the session after it
        · obtain ⟨user, found, rest, rfl, hrest⟩ :=
            (eval_checkCredentials hx).of_verifies_null he hnull
          exact ⟨dto, user, found, rest ++ tr₂, rfl, rfl, hrest⟩
        · exact absurd (hsession.verifiesHash e he) hnull
    · push Not at hlogin
      have hcareful := careful_identify hid hlogin
      rcases AuthRequest.eval_serve hid h with ⟨err, hx, -⟩ |
        ⟨user, tr₁, tr₂, out', rfl, hx, hsession, -⟩
      · exact absurd (hcareful.verifiesHash hx e he) hnull
      · rcases List.mem_append.mp he with he | he
        · exact absurd (hcareful.verifiesHash hx e he) hnull
        · exact absurd (hsession.verifiesHash e he) hnull

end Serve

end JudgeIt
