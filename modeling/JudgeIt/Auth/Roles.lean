import JudgeIt.Auth.Identity
import JudgeIt.Auth.Sequential

/-!
# Roles, by way of a token

The roles of a user travel in the payload of the access token, and the guard reads them off it. Four
requests end in a session. Three take the roles from the row of the user; the Google callback takes
them from a field of `request.user` that a row does not have, so the token says nothing about roles
and the strategy puts in the default. The roles the guard sees are those that are stored unless the
session was obtained from Google and the user's roles are not the default ones.
-/

namespace JudgeIt

open Async AuthDatabase

/-- `request.user` of a request with this access token. -/
def requestUser (M : AuthModule) (accessToken : JsString) : Except Exception RequestUser :=
  match M.jwtService.verify M.config.ACCESS_TOKEN_SECRET accessToken with
  | some (payload, _) => AtStrategy.validate payload
  | none => .error (.UnauthorizedException "Unauthorized")

/-- The token was issued to this user. -/
def IssuedTo (M : AuthModule) (accessToken : JsString) (user : User) : Prop :=
  ∃ payload iat,
    M.jwtService.verify M.config.ACCESS_TOKEN_SECRET accessToken = some (payload, iat) ∧
    payload.sub = user.id

/-- The guard sees the roles that are stored for the user. -/
def RolesAgree (M : AuthModule) (accessToken : JsString) (user : User) : Prop :=
  (requestUser M accessToken).map RequestUser.roles = .ok (some user.role)

/-- The session is obtained from Google. -/
def AuthRequest.google : AuthRequest → Bool
  | googleLogin .. => true
  | _ => false

variable {M : AuthModule} {s₀ : AuthDatabase} {tokens : Tokens} {user : User}
  {request : AuthRequest} {x : Authing User} {tr : List (Event AuthCall.Res)}
  {p : Pool AuthRequest AuthCall.Res Exception Reply AuthDatabase}
  {l : List (Pool AuthRequest AuthCall.Res Exception Reply AuthDatabase ×
    Pool.Action AuthRequest AuthCall.Res)}
  {proc : Process AuthRequest AuthCall.Res Exception Reply}

/-! ## The user of a session -/

theorem OAuthLogin.exists_returned {googleProfile : GoogleProfileDto}
    {accessToken refreshToken provider : JsString}
    (h : OAuthLogin googleProfile accessToken refreshToken provider tr (.ok user)) :
    ∃ y ∈ tr, returned y = some user := by
  generalize hout : (Except.ok user : Except Exception User) = out at h
  cases h with
  | refused _ _ | unread _ | unfound _ => cases hout
  | known account user' r =>
    rcases r with e | _ <;> cases hout
    exact ⟨_, List.mem_cons_self, rfl⟩
  | linked user' r _ =>
    rcases r with e | _ <;> cases hout
    exact ⟨_, List.mem_cons_of_mem _ List.mem_cons_self, rfl⟩
  | created id r _ =>
    cases hout
    exact ⟨_, List.mem_of_getLast? rfl, rfl⟩

theorem Credentials.exists_returned {dto : AuthDto} (h : Credentials M dto tr (.ok user)) :
    ∃ y ∈ tr, returned y = some user := by
  generalize hout : (Except.ok user : Except Exception User) = out at h
  cases h with
  | failed _ | unknown | unread _ _ | oauth _ _ => cases hout
  | @verified user' found r _ =>
    obtain rfl : user = user' := by
      rcases r with e | _
      · cases hout
      · simp only [Except.bind] at hout
        split at hout
        · cases hout
        · split at hout <;> cases hout
          rfl
    exact ⟨_, List.mem_cons_self, rfl⟩

theorem registerUser_exists_returned {dto : AuthDto}
    (h : (AuthService.registerUser M dto).Eval tr (.ok user)) :
    ∃ y ∈ tr, returned y = some user := by
  rcases Program.eval_bind_iff.mp h with ⟨e, -, he⟩ |
    ⟨hashed, tr₁, tr₂, rfl, -, r, tr, rfl, hcreate⟩
  · cases he
  rcases r with e | _ | found
  · cases hcreate.2
  · obtain ⟨r, tr, rfl, hend⟩ := hcreate
    rcases r with e | created <;> cases hend.2
    exact ⟨_, List.mem_append_right _ (List.mem_cons_of_mem _ List.mem_cons_self), rfl⟩
  · cases hcreate.2

theorem exists_returned (hid : request.identify M = some x) (h : x.Eval tr (.ok user)) :
    ∃ y ∈ tr, returned y = some user := by
  cases request <;> cases hid
  case register dto => exact registerUser_exists_returned h
  case login dto => exact (eval_checkCredentials h).exists_returned
  case refreshTokens userId rt =>
    obtain ⟨stored, rfl, -⟩ := eval_checkRefreshToken h rfl
    exact ⟨_, List.mem_cons_self, rfl⟩
  case googleLogin profile accessToken refreshToken =>
    rcases Program.eval_bind_iff.mp h with ⟨e, -, he⟩ | ⟨googleProfile, tr₁, tr₂, rfl, h₁, h₂⟩
    · cases he
    · obtain ⟨rfl, -⟩ := Program.eval_ofExcept_iff.mp h₁
      exact (eval_validateOAuthLogin h₂).exists_returned

/-! ## What the guard sees -/

/-- The roles a session is started with, and the roles the guard makes of them. -/
theorem AuthRequest.roles_getD : (request.roles user).getD [.USER] = user.role ↔
    (request.google = true → user.role = [.USER]) := by
  cases request with
  | googleLogin profile accessToken refreshToken =>
    exact ⟨fun h _ ↦ h.symm, fun h ↦ (h rfl).symm⟩
  | _ => exact ⟨fun _ h ↦ absurd h Bool.false_ne_true, fun _ ↦ rfl⟩

theorem rolesAgree_iff_of_verify {accessToken : JsString} {payload : JwtPayload} {iat : ℤ}
    (h : M.jwtService.verify M.config.ACCESS_TOKEN_SECRET accessToken = some (payload, iat))
    (hsub : payload.sub ≠ 0) : RolesAgree M accessToken user ↔
      payload.email ≠ [] ∧ payload.roles.getD [.USER] = user.role := by
  rw [RolesAgree, requestUser, h]
  by_cases hemail : payload.email = []
  · simp [AtStrategy.validate, hemail, Except.map]
  · simp [AtStrategy.validate, hemail, hsub, Except.map]

theorem exists_identify (h : (request.serve M).Eval tr (.ok (.tokens tokens))) :
    ∃ x, request.identify M = some x := by
  cases hid : request.identify M with
  | some x => exact ⟨x, rfl⟩
  | none =>
    cases request <;> cases hid <;>
      rcases Program.eval_bind_iff.mp h with ⟨e, -, he⟩ | ⟨_, _, _, -, -, -, he⟩ <;> cases he

/-- What a process has been told about a user stays so. -/
theorem known_of_trace (hrun : AuthRun M s₀ l p) : ∀ proc ∈ p.processes, ∀ y ∈ proc.trace,
    ∀ user, returned y = some user → Known p.shared user := by
  refine (Pool.local_invariant (I := fun _ ↦ True) (P := fun _ _ ↦ True)
    (J := fun _ tr db ↦ ∀ y ∈ tr,
    ∀ user, returned y = some user → Known db user) hrun trivial (fun _ _ _ _ _ _ ↦ trivial)
    (fun _ _ _ _ _ _ _ _ ↦ trivial) ?_ ?_ ?_).2
  · intro request db _ y hy
    cases hy
  · intro request tr db op r db' _ hanswer _ h y hy user hreturned
    rcases List.mem_append.mp hy with hy | hy
    · exact (h y hy user hreturned).extends hanswer.effect.extends
    · rw [List.mem_singleton.mp hy] at hreturned
      exact ⟨user, mem_of_returned hanswer hreturned, rfl, rfl, rfl⟩
  · intro request other tr db op r db' _ hanswer _ h y hy user hreturned
    exact (h y hy user hreturned).extends hanswer.effect.extends

/-- A request that has been answered with tokens has signed the access token for a user that is
stored. -/
theorem exists_verify (hrun : AuthRun M s₀ l p) (hproc : proc ∈ p.processes)
    (hrest : proc.rest = .pure (.tokens tokens)) : ∃ user ∈ p.shared.users.rows, ∃ iat,
      M.jwtService.verify M.config.ACCESS_TOKEN_SECRET tokens.access_token =
        some (⟨user.id, user.email, proc.request.roles user⟩, iat) := by
  have heval : (proc.request.serve M).Eval proc.trace (.ok (.tokens tokens)) := by
    have hdone : proc.rest.Eval [] (.ok (.tokens tokens)) := by
      rw [hrest]
      exact ⟨rfl, rfl⟩
    have h := (Pool.valid hrun proc hproc).eval hdone
    rwa [List.append_nil] at h
  obtain ⟨x, hid⟩ := exists_identify heval
  rcases AuthRequest.eval_serve hid heval with ⟨e, -, he⟩ |
    ⟨user, tr₁, tr₂, out, htr, hx, hsession, hout⟩
  · cases he
  rcases out with e | tokens'
  · cases hout
  cases hout
  obtain ⟨iat, iat', salt, -, rfl⟩ := hsession.of_ok
  obtain ⟨y, hy, hreturned⟩ := exists_returned hid hx
  obtain ⟨u, hu, hu_id, hemail, hrole⟩ :=
    known_of_trace hrun proc hproc y (htr ▸ List.mem_append_left _ hy) user hreturned
  have hroles : proc.request.roles u = proc.request.roles user := by
    cases proc.request <;> first | exact congrArg some hrole | rfl
  refine ⟨u, hu, iat, ?_⟩
  rw [hu_id, hemail, hroles]
  exact M.jwtService.verify_sign M.accessOptions _ iat

/-- **When the guard sees what is stored.** In every run, a session is for a user that is stored;
and the roles the guard reads off its access token are the stored ones exactly when the user has an
address and, should the session be obtained from Google, no other roles than the default. -/
theorem rolesAgree_iff (hrun : AuthRun M s₀ l p) (hproc : proc ∈ p.processes)
    (hrest : proc.rest = .pure (.tokens tokens)) :
    (∃ user ∈ p.shared.users.rows, IssuedTo M tokens.access_token user) ∧
    ∀ user ∈ p.shared.users.rows, IssuedTo M tokens.access_token user →
      (RolesAgree M tokens.access_token user ↔
        user.email ≠ [] ∧ (proc.request.google = true → user.role = [.USER])) := by
  obtain ⟨user, huser, iat, hverify⟩ := exists_verify hrun hproc hrest
  refine ⟨⟨user, huser, _, iat, hverify, rfl⟩, ?_⟩
  rintro user' huser' ⟨payload, iat', hverify', hsub⟩
  -- the token names one user only
  rw [hverify, Option.some.injEq, Prod.mk.injEq] at hverify'
  obtain ⟨rfl, rfl⟩ := hverify'
  obtain rfl : user = user' := List.inj_on_of_nodup_map p.shared.users.nodup huser huser' hsub
  have hid : user.id ≠ 0 := by linarith [(p.shared.users.key_mem user huser).1]
  rw [rolesAgree_iff_of_verify hverify hid, AuthRequest.roles_getD]

/-! ## An administrator comes from Google -/

/-- A registered user who has been made an administrator. -/
def administrator : User where
  id := 1
  email := [97]
  username := [97]
  hash := some [98]
  hashedRt := none
  role := [.ADMIN]

/-- The tables with him alone. -/
def administered : AuthDatabase where
  users := AutoTable.empty.insert administrator rfl
  accounts := .empty
  resetTokens := .empty
  nodup_email := List.nodup_singleton administrator.email
  nodup_username := List.nodup_singleton administrator.username
  nodup_providerKey := AuthDatabase.empty.nodup_providerKey
  account_user := List.forall_mem_nil _
  token_user := List.forall_mem_nil _

/-- He logs in with Google, under the address he has registered with. -/
def administratorLogin : AuthRequest := .googleLogin ⟨[1], some [([97], some true)], none⟩ [2] [3]

/-- The tokens he gets. -/
def administratorTokens : Tokens := tokensAt plainModule ⟨1, [97], none⟩ 0 0

theorem verify_administratorTokens : plainModule.jwtService.verify
    plainModule.config.ACCESS_TOKEN_SECRET administratorTokens.access_token =
      some (⟨1, [97], none⟩, 0) :=
  plainModule.jwtService.verify_sign plainModule.accessOptions _ 0

theorem exists_run_administrator : ∃ l p proc user, AuthRun plainModule administered l p ∧
    proc ∈ p.processes ∧ proc.request = administratorLogin ∧
    proc.rest = .pure (.tokens administratorTokens) ∧ user ∈ p.shared.users.rows ∧
    IssuedTo plainModule administratorTokens.access_token user ∧ user.role = [.ADMIN] := by
  let w : World := { plainWorld with db := administered }
  obtain ⟨l, hrun⟩ := World.exists_run (M := plainModule) .nil w rfl administratorLogin
  exact ⟨l, _, _, _, hrun, List.mem_singleton_self _, rfl, rfl, List.mem_cons_self,
    ⟨_, _, verify_administratorTokens, rfl⟩, rfl⟩

/-- An administrator who comes from Google is seen as a mere user. -/
theorem exists_not_rolesAgree : ∃ l p proc user, AuthRun plainModule administered l p ∧
    proc ∈ p.processes ∧ proc.rest = .pure (.tokens administratorTokens) ∧
    user ∈ p.shared.users.rows ∧ IssuedTo plainModule administratorTokens.access_token user ∧
    ¬RolesAgree plainModule administratorTokens.access_token user := by
  obtain ⟨l, p, proc, user, hrun, hproc, -, hrest, huser, hissued, hrole⟩ :=
    exists_run_administrator
  refine ⟨l, p, proc, user, hrun, hproc, hrest, huser, hissued, ?_⟩
  rw [rolesAgree_iff_of_verify verify_administratorTokens (by decide), hrole]
  decide

/-- The condition decides it in that run. -/
theorem rolesAgree_iff_administrator : ∃ l p proc user, AuthRun plainModule administered l p ∧
    proc ∈ p.processes ∧ user ∈ p.shared.users.rows ∧
    (RolesAgree plainModule administratorTokens.access_token user ↔
      user.email ≠ [] ∧ (proc.request.google = true → user.role = [.USER])) := by
  obtain ⟨l, p, proc, user, hrun, hproc, -, hrest, huser, hissued, -⟩ := exists_run_administrator
  exact ⟨l, p, proc, user, hrun, hproc, huser,
    (rolesAgree_iff hrun hproc hrest).2 user huser hissued⟩

end JudgeIt
