import JudgeIt.Auth.Persistence
import JudgeIt.Auth.PlainModule

/-!
# Who logs in with an account

An OAuth login looks for the account, then for the address of the profile, and only then creates a
user; each lookup may be out of date by the time of the write after it. What makes the outcome
unambiguous is the key of an account: whichever way a login succeeds, the tables hold, from then on,
an account with the provider's key that belongs to the user it returned, and there is one account
for a key. A login that comes too late is refused by one of the unique keys, and has written
nothing.
-/

namespace JudgeIt

open Async AuthDatabase

/-- The way of an OAuth login through its calls. -/
inductive OAuthLogin (googleProfile : GoogleProfileDto)
    (accessToken refreshToken provider : JsString) :
    List (Event AuthCall.Res) → Except Exception User → Prop
  /-- The profile has no address, or one that is not verified. -/
  | refused (e : Exception) : googleProfile.email = [] ∨ googleProfile.emailVerified = false →
      OAuthLogin googleProfile accessToken refreshToken provider [] (.error e)
  /-- The account cannot be looked up. -/
  | unread (e : Exception) : OAuthLogin googleProfile accessToken refreshToken provider
      [⟨.findAccountByProvider provider googleProfile.id, .error e⟩] (.error e)
  /-- There is one. -/
  | known (account : Account) (user : User) (r : Except Exception Unit) :
      OAuthLogin googleProfile accessToken refreshToken provider
        [⟨.findAccountByProvider provider googleProfile.id, .ok (some (account, user))⟩,
          ⟨.updateOauthAccount account.id accessToken refreshToken, r⟩] (r.map fun _ ↦ user)
  /-- The user cannot be looked up. -/
  | unfound (e : Exception) : OAuthLogin googleProfile accessToken refreshToken provider
      [⟨.findAccountByProvider provider googleProfile.id, .ok none⟩,
        ⟨.findByEmail googleProfile.email, .error e⟩] (.error e)
  /-- There is a user with the address. -/
  | linked (user : User) (r : Except Exception Unit) : googleProfile.email ≠ [] →
      OAuthLogin googleProfile accessToken refreshToken provider
        [⟨.findAccountByProvider provider googleProfile.id, .ok none⟩,
          ⟨.findByEmail googleProfile.email, .ok (some user)⟩,
          ⟨.linkOauthUser user.id provider googleProfile.id accessToken refreshToken, r⟩]
        (r.map fun _ ↦ user)
  /-- There is none. -/
  | created (id : JsString) (r : Except Exception User) : googleProfile.email ≠ [] →
      OAuthLogin googleProfile accessToken refreshToken provider
        [⟨.findAccountByProvider provider googleProfile.id, .ok none⟩,
          ⟨.findByEmail googleProfile.email, .ok none⟩, ⟨.getId, id⟩,
          ⟨.createOauthUser googleProfile.email (UsersRepository.oauthUsername googleProfile id)
            provider googleProfile.id accessToken refreshToken, r⟩] r

variable {M : AuthModule} {googleProfile : GoogleProfileDto}
  {accessToken refreshToken provider : JsString} {tr : List (Event AuthCall.Res)}
  {out : Except Exception User} {db db' s₀ : AuthDatabase} {user : User}

theorem eval_validateOAuthLogin (h : (AuthService.validateOAuthLogin googleProfile accessToken
    refreshToken provider).Eval tr out) :
    OAuthLogin googleProfile accessToken refreshToken provider tr out := by
  rcases Program.eval_ite h with ⟨hemail, rfl, rfl⟩ | ⟨hemail, h₁⟩
  · exact .refused _ (Or.inl hemail)
  rcases Program.eval_ite h₁ with ⟨hverified, rfl, rfl⟩ | ⟨-, r, tr, rfl, h₂⟩
  · exact .refused _ (Or.inr (by simpa using hverified))
  rcases r with e | _ | ⟨account, user⟩
  · obtain ⟨rfl, rfl⟩ := h₂
    exact .unread e
  · -- no account
    rcases (Program.eval_bind_iff (x := UsersService.findByEmail googleProfile.email)).mp h₂ with
      ⟨e, he, rfl⟩ | ⟨found, tr₁, tr₂, rfl, hfound, hrest⟩
    · rcases Program.eval_ite he with ⟨hnil, -⟩ | ⟨-, r, tr, rfl, hend⟩
      · exact absurd hnil hemail
      rcases r with e' | found <;> cases hend.2
      rw [hend.1]
      exact .unfound _
    rcases Program.eval_ite hfound with ⟨hnil, -⟩ | ⟨-, r, tr, rfl, hend⟩
    · exact absurd hnil hemail
    rcases r with e' | found <;> cases hend.2
    obtain rfl : tr = [] := hend.1
    rcases found with _ | user
    · obtain ⟨id, tr, rfl, r, tr, rfl, hrest⟩ := hrest
      obtain ⟨rfl, rfl⟩ := Program.eval_ofExcept_iff.mp hrest
      exact .created id _ hemail
    · obtain ⟨r, tr, rfl, hrest⟩ := hrest
      rcases r with e | _ <;> obtain ⟨rfl, rfl⟩ := hrest
      · exact .linked user (.error e) hemail
      · exact .linked user (.ok ()) hemail
  · obtain ⟨r, tr, rfl, hrest⟩ := h₂
    rcases r with e | _ <;> obtain ⟨rfl, rfl⟩ := hrest
    · exact .known account user (.error e)
    · exact .known account user (.ok ())

/-! ## Accounts and their users -/

/-- The account with this key belongs to this user. -/
def Bound (db : AuthDatabase) (key : JsString × JsString) (userId : ℤ) : Prop :=
  ∃ a ∈ db.accounts.rows, a.providerKey = key ∧ a.userId = userId

/-- The account an answered call shows to belong to a user. -/
def bound : Event AuthCall.Res → Option ((JsString × JsString) × ℤ)
  | ⟨.findAccountByProvider provider id, .ok (some (_, user))⟩ => some ((provider, id), user.id)
  | ⟨.linkOauthUser userId provider id _ _, .ok _⟩ => some ((provider, id), userId)
  | ⟨.createOauthUser _ _ provider id _ _, .ok user⟩ => some ((provider, id), user.id)
  | _ => none

theorem Bound.unique {key : JsString × JsString} {userId userId' : ℤ} (h : Bound db key userId)
    (h' : Bound db key userId') : userId = userId' := by
  obtain ⟨a, ha, hkey, rfl⟩ := h
  obtain ⟨a', ha', hkey', rfl⟩ := h'
  rw [List.inj_on_of_nodup_map db.nodup_providerKey ha ha' (hkey.trans hkey'.symm)]

theorem Bound.extends {key : JsString × JsString} {userId : ℤ} (h : Bound db key userId)
    (hext : db.Extends db') : Bound db' key userId := by
  obtain ⟨a, ha, rfl, rfl⟩ := h
  obtain ⟨a', ha', huser, hkey⟩ := hext.account a ha
  exact ⟨a', ha', hkey, huser⟩

theorem bound_of_createAccount {userId : ℤ} {id : JsString}
    (h : db.createAccount userId provider id accessToken refreshToken = some db') :
    Bound db' (provider, id) userId := by
  obtain ⟨-, -, -, hrows⟩ := of_createAccount h
  exact ⟨_, by rw [hrows]; exact List.mem_append_right _ (List.mem_singleton_self _), rfl, rfl⟩

theorem bound_answered {op : AuthCall} {r : op.Res} {key : JsString × JsString} {userId : ℤ}
    (hanswer : Answers db op r db') (h : bound ⟨op, r⟩ = some (key, userId)) :
    Bound db' key userId := by
  cases op with
  | findAccountByProvider provider id =>
    rcases r with e | _ | ⟨account, user⟩
    · cases h
    · cases h
    · cases h
      obtain ⟨rfl, hfound⟩ := hanswer
      obtain ⟨a, ha, hu⟩ := Option.bind_eq_some_iff.mp hfound.symm
      obtain ⟨u, hu, heq⟩ := Option.map_eq_some_iff.mp hu
      cases heq
      refine ⟨account, List.mem_of_find?_eq_some ha, by simpa using List.find?_some ha, ?_⟩
      exact (AutoTable.find?_eq_some_iff.mp hu).2.symm
  | linkOauthUser userId provider id at' rt =>
    rcases r with e | _
    · cases h
    · cases h
      exact bound_of_createAccount hanswer
  | createOauthUser email username provider id at' rt =>
    rcases r with e | user
    · cases h
    · cases h
      obtain ⟨db₁, -, haccount⟩ := of_createOauthUser hanswer
      exact bound_of_createAccount haccount
  | _ => rcases r with e | r <;> cases h

theorem OAuthLogin.exists_bound
    (h : OAuthLogin googleProfile accessToken refreshToken provider tr (.ok user)) :
    ∃ x ∈ tr, bound x = some ((provider, googleProfile.id), user.id) := by
  generalize hout : (Except.ok user : Except Exception User) = out at h
  cases h with
  | refused _ _ | unread _ | unfound _ => cases hout
  | known account user' r =>
    rcases r with e | _ <;> cases hout
    exact ⟨_, List.mem_cons_self, rfl⟩
  | linked user' r _ =>
    rcases r with e | _ <;> cases hout
    exact ⟨_, List.mem_of_getLast? rfl, rfl⟩
  | created id r _ =>
    cases hout
    exact ⟨_, List.mem_of_getLast? rfl, rfl⟩

/-! ## Logins in a run -/

/-- The service call an OAuth strategy makes. -/
structure OAuthAttempt where
  googleProfile : GoogleProfileDto
  accessToken : JsString
  refreshToken : JsString
  provider : JsString

namespace OAuthAttempt

/-- The key of the account. -/
def key (x : OAuthAttempt) : JsString × JsString := (x.provider, x.googleProfile.id)

/-- The call. -/
def login (x : OAuthAttempt) : Authing User :=
  AuthService.validateOAuthLogin x.googleProfile x.accessToken x.refreshToken x.provider

end OAuthAttempt

/-- The call a request makes, if any. -/
def AuthRequest.oauth : AuthRequest → Option OAuthAttempt
  | validateOAuthLogin googleProfile accessToken refreshToken provider =>
    some ⟨googleProfile, accessToken, refreshToken, provider⟩
  | googleLogin profile accessToken refreshToken =>
    match profile.toGoogleProfile with
    | .ok googleProfile => some ⟨googleProfile, accessToken, refreshToken, .ofString "google"⟩
    | .error _ => none
  | _ => none

/-- The call of this process has succeeded with a user, for the account with this key. -/
def LogsIn (proc : Process AuthRequest AuthCall.Res Exception Reply) (key : JsString × JsString)
    (user : User) : Prop :=
  ∃ x tr, proc.request.oauth = some x ∧ x.key = key ∧ tr <+: proc.trace ∧ x.login.Eval tr (.ok user)

variable {p : Pool AuthRequest AuthCall.Res Exception Reply AuthDatabase}
  {l : List (Pool AuthRequest AuthCall.Res Exception Reply AuthDatabase ×
    Pool.Action AuthRequest AuthCall.Res)}

/-- What a process has been shown about an account stays so. -/
theorem bound_of_trace (hrun : AuthRun M s₀ l p) : ∀ proc ∈ p.processes, ∀ x ∈ proc.trace,
    ∀ key userId, bound x = some (key, userId) → Bound p.shared key userId := by
  refine (Pool.local_invariant (I := fun _ ↦ True) (P := fun _ _ ↦ True)
    (J := fun _ tr db ↦ ∀ x ∈ tr,
    ∀ key userId, bound x = some (key, userId) → Bound db key userId) hrun trivial
    (fun _ _ _ _ _ _ ↦ trivial) (fun _ _ _ _ _ _ _ _ ↦ trivial) ?_ ?_ ?_).2
  · intro request s _ x hx
    cases hx
  · intro request tr s op r s' _ hanswer _ h x hx key userId hbound
    rcases List.mem_append.mp hx with hx | hx
    · exact (h x hx key userId hbound).extends hanswer.effect.extends
    · rw [List.mem_singleton.mp hx] at hbound
      exact bound_answered hanswer hbound
  · intro request other tr s op r s' _ hanswer _ h x hx key userId hbound
    exact (h x hx key userId hbound).extends hanswer.effect.extends

theorem LogsIn.bound (hrun : AuthRun M s₀ l p)
    {proc : Process AuthRequest AuthCall.Res Exception Reply} (hproc : proc ∈ p.processes)
    {key : JsString × JsString} (h : LogsIn proc key user) : Bound p.shared key user.id := by
  obtain ⟨x, tr, -, rfl, hpre, heval⟩ := h
  obtain ⟨e, he, hbound⟩ := (eval_validateOAuthLogin heval).exists_bound
  exact bound_of_trace hrun proc hproc e (hpre.subset he) _ _ hbound

/-! ## Losing a race -/

/-- A create that has been rejected. -/
def refused : Event AuthCall.Res → Bool
  | ⟨.createUser .., .error _⟩ | ⟨.createOauthUser .., .error _⟩
  | ⟨.linkOauthUser .., .error _⟩ => true
  | _ => false

/-- A call so answered has changed no user and no account. -/
def LeavesAlone (x : Event AuthCall.Res) : Prop :=
  ∀ db db', Answers db x.1 x.2 db' → db'.users = db.users ∧ db'.accounts = db.accounts

/-- The requests that create users or accounts. -/
def AuthRequest.creates : AuthRequest → Bool
  | register _ | googleLogin .. | validateOAuthLogin .. => true
  | _ => false

/-- The program has either had no create rejected, or has failed and changed nothing. -/
def AllOrNothing {α : Type} (tr : List (Event AuthCall.Res)) (out : Except Exception α) : Prop :=
  (∀ x ∈ tr, refused x = false) ∨ (∃ e, out = .error e) ∧ ∀ x ∈ tr, LeavesAlone x

theorem leavesAlone_of_eq {x : Event AuthCall.Res}
    (h : ∀ db db', Answers db x.1 x.2 db' → db' = db) : LeavesAlone x := fun db db' hanswer ↦ by
  rw [h db db' hanswer]
  exact ⟨rfl, rfl⟩

theorem OAuthLogin.allOrNothing
    (h : OAuthLogin googleProfile accessToken refreshToken provider tr out) :
    AllOrNothing tr out := by
  have hread (found : Option (Account × User)) : LeavesAlone
      ⟨.findAccountByProvider provider googleProfile.id, .ok found⟩ :=
    leavesAlone_of_eq fun _ _ h ↦ h.1
  have hfind (found : Option User) : LeavesAlone ⟨.findByEmail googleProfile.email, .ok found⟩ :=
    leavesAlone_of_eq fun _ _ h ↦ h.1
  cases h with
  | refused _ _ => exact Or.inl (by simp)
  | unread _ | unfound _ => exact Or.inl (by simp [JudgeIt.refused])
  | known account user r => exact Or.inl (by simp [JudgeIt.refused])
  | linked user r _ =>
    rcases r with e | _
    · refine Or.inr ⟨⟨e, rfl⟩, ?_⟩
      simp only [List.forall_mem_cons]
      exact ⟨hread _, hfind _, leavesAlone_of_eq fun _ _ h ↦ h, by simp⟩
    · exact Or.inl (by simp [JudgeIt.refused])
  | created id _ _ =>
    rcases out with e | user
    · refine Or.inr ⟨⟨e, rfl⟩, ?_⟩
      simp only [List.forall_mem_cons]
      exact ⟨hread _, hfind _, leavesAlone_of_eq fun _ _ h ↦ h, leavesAlone_of_eq fun _ _ h ↦ h,
        by simp⟩
    · exact Or.inl (by simp [JudgeIt.refused])

theorem allOrNothing_registerUser {dto : AuthDto}
    (h : (AuthService.registerUser M dto).Eval tr out) : AllOrNothing tr out := by
  rcases Program.eval_bind_iff.mp h with ⟨e, he, -⟩ | ⟨hashed, tr₁, tr₂, rfl, hhash, hcreate⟩
  · obtain ⟨r, rfl, -⟩ := eval_hash_iff.mp he
    exact Or.inl (by simp [refused])
  obtain ⟨r₁, rfl, -⟩ := eval_hash_iff.mp hhash
  obtain ⟨r₂, tr₂, rfl, hcreate⟩ := hcreate
  rcases r₂ with e | _ | user
  · obtain ⟨rfl, -⟩ := hcreate
    exact Or.inl (by simp [refused])
  · obtain ⟨r₃, tr₃, rfl, hend⟩ := hcreate
    rcases r₃ with e | user
    · obtain ⟨rfl, rfl⟩ := hend
      refine Or.inr ⟨⟨e, rfl⟩, ?_⟩
      simp only [List.cons_append, List.nil_append, List.forall_mem_cons]
      exact ⟨leavesAlone_of_eq fun _ _ h ↦ h, leavesAlone_of_eq fun _ _ h ↦ h.1,
        leavesAlone_of_eq fun _ _ h ↦ h, by simp⟩
    · obtain ⟨rfl, -⟩ := hend
      exact Or.inl (by simp [refused])
  · obtain ⟨rfl, -⟩ := hcreate
    exact Or.inl (by simp [refused])

theorem Session.not_refused {payload : JwtPayload} {out : Except Exception Tokens}
    (h : Session M payload tr out) : ∀ x ∈ tr, refused x = false := by
  cases h <;> simp [refused]

theorem allOrNothing_identify {request : AuthRequest} {x : Authing User}
    (hcreates : request.creates = true) (hid : request.identify M = some x) (h : x.Eval tr out) :
    AllOrNothing tr out := by
  cases request <;> cases hid
  case register dto => exact allOrNothing_registerUser h
  case login dto => cases hcreates
  case refreshTokens userId rt => cases hcreates
  case googleLogin profile accessToken refreshToken =>
    rcases Program.eval_bind_iff.mp h with ⟨e, he, -⟩ | ⟨googleProfile, tr₁, tr₂, rfl, h₁, h₂⟩
    · obtain ⟨rfl, -⟩ := Program.eval_ofExcept_iff.mp he
      exact Or.inl (by simp)
    · obtain ⟨rfl, -⟩ := Program.eval_ofExcept_iff.mp h₁
      exact (eval_validateOAuthLogin h₂).allOrNothing

theorem allOrNothing_serve {request : AuthRequest} {out : Except Exception Reply}
    (hcreates : request.creates = true) (h : (request.serve M).Eval tr out) :
    AllOrNothing tr out := by
  cases hid : request.identify M with
  | some x =>
    rcases AuthRequest.eval_serve hid h with ⟨e, hx, rfl⟩ |
      ⟨user, tr₁, tr₂, out', rfl, hx, hsession, -⟩
    · rcases allOrNothing_identify hcreates hid hx with hno | ⟨-, halone⟩
      · exact Or.inl hno
      · exact Or.inr ⟨⟨e, rfl⟩, halone⟩
    · rcases allOrNothing_identify hcreates hid hx with hno | ⟨⟨e, he⟩, -⟩
      · exact Or.inl (List.forall_mem_append.mpr ⟨hno, hsession.not_refused⟩)
      · cases he
  | none =>
    cases request with
    | register _ | googleLogin _ _ _ => cases hid
    | validateOAuthLogin googleProfile accessToken refreshToken provider =>
      rcases Program.eval_bind_iff.mp h with ⟨e, he, rfl⟩ | ⟨user, tr₁, tr₂, rfl, h₁, rfl, -⟩
      · rcases (eval_validateOAuthLogin he).allOrNothing with hno | ⟨-, halone⟩
        · exact Or.inl hno
        · exact Or.inr ⟨⟨e, rfl⟩, halone⟩
      · rcases (eval_validateOAuthLogin h₁).allOrNothing with hno | ⟨⟨e, he⟩, -⟩
        · exact Or.inl (by simpa using hno)
        · cases he
    | _ => cases hcreates

/-- **One account, one user.** In every run, whatever goes on at once: all logins with an account
come to the same user; no two users have one address; and a request that has had a create rejected
has changed no user and no account. -/
theorem oauthLogin_identity (hrun : AuthRun M s₀ l p) :
    (∀ proc ∈ p.processes, ∀ proc' ∈ p.processes, ∀ key user user', LogsIn proc key user →
      LogsIn proc' key user' → user.id = user'.id) ∧
    (∀ u ∈ p.shared.users.rows, ∀ v ∈ p.shared.users.rows, u.email = v.email → u = v) ∧
    ∀ proc ∈ p.processes, proc.request.creates = true → (∃ x ∈ proc.trace, refused x = true) →
      ∀ x ∈ proc.trace, LeavesAlone x := by
  refine ⟨fun proc hproc proc' hproc' key user user' h h' ↦ ?_, fun u hu v hv heq ↦ ?_, ?_⟩
  · exact (h.bound hrun hproc).unique (h'.bound hrun hproc')
  · exact List.inj_on_of_nodup_map p.shared.nodup_email hu hv heq
  · rintro proc hproc hcreates ⟨x, hx, hrefused⟩ y hy
    obtain ⟨rest, out, heval⟩ := (Pool.valid hrun proc hproc).exists_eval
    rcases allOrNothing_serve hcreates heval with hno | ⟨-, halone⟩
    · rw [hno x (List.mem_append_left _ hx)] at hrefused
      cases hrefused
    · exact halone y (List.mem_append_left _ hy)

/-! ## A race -/

/-- A login with one account, under an address of its own. -/
def loginAs (email : JsString) : AuthRequest :=
  .validateOAuthLogin ⟨[1], email, none, true⟩ [2] [3] [103]

/-- Three of them. -/
def logins : Pool AuthRequest AuthCall.Res Exception Reply World :=
  [[97], [98], [99]].foldl
    (fun p email ↦ p.accepted (AuthRequest.serve plainModule) (loginAs email))
    ⟨[], plainWorld⟩

/-- Two find nothing, each goes on to create a user, and the second is refused; the third comes
later. -/
def raced : Pool AuthRequest AuthCall.Res Exception Reply AuthDatabase :=
  ([0, 1, 0, 1, 0, 1, 0, 1, 2, 2].foldl (Pool.turn World.respond) logins).mapShared World.db

/-- The user the first has created. -/
def racedUser : User where
  id := 1
  email := [97]
  username := UsersRepository.oauthUsername ⟨[1], [97], none, true⟩ [6]
  hash := none
  hashedRt := none
  role := [.USER]

theorem oauthLogin_identity_raced : ∃ l proc₀ proc₁ proc₂, AuthRun plainModule .empty l raced ∧
    raced.processes = [proc₀, proc₁, proc₂] ∧ LogsIn proc₀ ([103], [1]) racedUser ∧
    (∀ user, LogsIn proc₂ ([103], [1]) user → user.id = racedUser.id) ∧
    (∃ x ∈ proc₁.trace, refused x = true) ∧ ∀ x ∈ proc₁.trace, LeavesAlone x := by
  have hrun : AuthRun plainModule .empty _ (logins.mapShared World.db) :=
    ((Transition.Run.nil.snoc (.accept _)).snoc (.accept _)).snoc (.accept _)
  have hturns := Pool.run_turns World.answers_respond hrun [0, 1, 0, 1, 0, 1, 0, 1, 2, 2]
  obtain ⟨hsame, -, hlost⟩ := oauthLogin_identity hturns
  obtain ⟨proc₀, proc₁, proc₂, hprocs, hlogs, hcreates, hrefused⟩ : ∃ proc₀ proc₁ proc₂,
      raced.processes = [proc₀, proc₁, proc₂] ∧ LogsIn proc₀ ([103], [1]) racedUser ∧
      proc₁.request.creates = true ∧ ∃ x ∈ proc₁.trace, refused x = true :=
    ⟨_, _, _, rfl, ⟨⟨⟨[1], [97], none, true⟩, [2], [3], [103]⟩, _, rfl, rfl, List.prefix_rfl, _, _,
      rfl, _, _, rfl, _, _, rfl, _, _, rfl, rfl, rfl⟩, rfl, _,
      .tail _ (.tail _ (.tail _ (.head _))), rfl⟩
  have h₀ : proc₀ ∈ raced.processes := by simp [hprocs]
  have h₁ : proc₁ ∈ raced.processes := by simp [hprocs]
  have h₂ : proc₂ ∈ raced.processes := by simp [hprocs]
  refine ⟨_, proc₀, proc₁, proc₂, hturns, hprocs, hlogs, fun user huser ↦ ?_, hrefused, ?_⟩
  · exact hsame proc₂ h₂ proc₀ h₀ _ _ _ huser hlogs
  · exact hlost proc₁ h₁ hcreates hrefused

end JudgeIt
