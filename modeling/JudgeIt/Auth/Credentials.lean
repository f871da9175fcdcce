import JudgeIt.Auth.Calls
import JudgeIt.Auth.Persistence
import JudgeIt.Auth.PlainModule

/-!
# Every user can be authenticated

A user has a password or an account with a provider: register stores a password, a first OAuth login
stores the account together with the user, and neither is ever taken away. It is what the non-null
assertion in `login` rests on. A login that reads a user without a password finds an account when it
looks a moment later, and so never gets to `argon2.verify` with `null`; the other callers of
`argon2.verify` check first.
-/

namespace JudgeIt

open Async AuthDatabase

/-- Every user has a password or an account. -/
def Credentialed (db : AuthDatabase) : Prop :=
  ∀ u ∈ db.users.rows, u.hash.isSome ∨ ∃ a ∈ db.accounts.rows, a.userId = u.id

variable {M : AuthModule} {db db' s₀ : AuthDatabase} {x : Event AuthCall.Res}
  {p : Pool AuthRequest AuthCall.Res Exception Reply AuthDatabase}
  {l : List (Pool AuthRequest AuthCall.Res Exception Reply AuthDatabase ×
    Pool.Action AuthRequest AuthCall.Res)}

/-! ## Every write keeps it -/

theorem AuthDatabase.Extends.credentialed_of (h : db.Extends db') (hdb : Credentialed db)
    {u u' : User} (hu : u ∈ db.users.rows) (hid : u'.id = u.id)
    (hhash : u.hash.isSome → u'.hash.isSome) :
    u'.hash.isSome ∨ ∃ a ∈ db'.accounts.rows, a.userId = u'.id := by
  rcases hdb u hu with hsome | ⟨a, ha, huser⟩
  · exact Or.inl (hhash hsome)
  · obtain ⟨a', ha', huser', -⟩ := h.account a ha
    exact Or.inr ⟨a', ha', by rw [huser', huser, hid]⟩

theorem Credentialed.modifyUser {id : ℤ}
    {f : Option JsString × Option JsString → Option JsString × Option JsString}
    (h : Credentialed db) (hf : ∀ h, h.1.isSome → (f h).1.isSome) :
    Credentialed (db.modifyUser id f) := by
  intro u' hu'
  obtain ⟨u, hu, rfl⟩ := mem_modifyUser.mp hu'
  refine (Extends.modifyUser hf).credentialed_of h hu ?_ ?_
  · split <;> rfl
  · split
    · exact hf (u.hash, u.hashedRt)
    · exact fun hsome ↦ hsome

theorem Credentialed.of_users_eq (h : Credentialed db) (hext : db.Extends db')
    (husers : db'.users = db.users) : Credentialed db' := by
  intro u hu
  rw [husers] at hu
  exact hext.credentialed_of h hu rfl fun hsome ↦ hsome

theorem Credentialed.effect (h : Credentialed db) (heffect : Effect db x db') :
    Credentialed db' := by
  have hext := heffect.extends
  cases heffect with
  | nothing => exact h
  | createUser hcreate =>
    obtain ⟨rfl, -, hrows, -⟩ := of_createUser hcreate
    intro u hu
    rw [hrows] at hu
    rcases List.mem_append.mp hu with hu | hu
    · exact hext.credentialed_of h hu rfl fun hsome ↦ hsome
    · rw [List.mem_singleton.mp hu]
      exact Or.inl rfl
  | createOauthUser hcreate =>
    -- the new user has no password, but his account is created with him
    obtain ⟨db₁, hcreate, haccount⟩ := of_createOauthUser hcreate
    obtain ⟨-, -, hrows, -⟩ := of_createUser hcreate
    obtain ⟨-, husers, -, hadded⟩ := of_createAccount haccount
    intro u hu
    rw [husers, hrows] at hu
    rcases List.mem_append.mp hu with hu | hu
    · exact hext.credentialed_of h hu rfl fun hsome ↦ hsome
    · rw [List.mem_singleton.mp hu, hadded]
      exact Or.inr ⟨_, List.mem_append_right _ (List.mem_singleton_self _), rfl⟩
  | updateRtHash hupdate =>
    rw [(updateRtHash_eq_some_iff.mp hupdate).2]
    exact h.modifyUser fun _ hsome ↦ hsome
  | deleteRt => exact h.modifyUser fun _ hsome ↦ hsome
  | changePassword hchange =>
    rw [(changePassword_eq_some_iff.mp hchange).2]
    exact h.modifyUser fun _ _ ↦ rfl
  | linkOauthUser hlink => exact h.of_users_eq hext (of_createAccount hlink).2.1
  | updateOauthAccount hupdate => exact h.of_users_eq hext (of_updateOauthAccount hupdate).1
  | createPasswordResetToken hcreate =>
    exact h.of_users_eq hext (of_createPasswordResetToken hcreate).1
  | markTokenUsed hmark => exact h.of_users_eq hext (of_markTokenUsed hmark).1

/-! ## What a login knows about its user -/

/-- A user found by a login is still there, and has an account when it was found without a
password; and then the login has seen that account. -/
structure KnowsUser (email : JsString) (tr : List (Event AuthCall.Res)) (db : AuthDatabase) :
    Prop where
  found : ∀ user rest, tr = ⟨.findByEmail email, .ok (some user)⟩ :: rest →
    (∃ u ∈ db.users.rows, u.id = user.id ∧ u.email = email) ∧
      (user.hash = none → ∃ a ∈ db.accounts.rows, a.userId = user.id)
  seen : ∀ user found rest, tr = ⟨.findByEmail email, .ok (some user)⟩ ::
      ⟨.findWithAccounts email, .ok found⟩ :: rest →
    user.hash = none → UsersRepository.someAccount found = true

theorem KnowsUser.extends {email : JsString} {tr : List (Event AuthCall.Res)}
    (h : KnowsUser email tr db) (hext : db.Extends db') : KnowsUser email tr db' where
  found := fun user rest htr ↦ by
    obtain ⟨⟨u, hu, hid, hemail⟩, haccount⟩ := h.found user rest htr
    obtain ⟨u', hu', hid', hemail', -, -⟩ := hext.user u hu
    refine ⟨⟨u', hu', hid'.trans hid, hemail'.trans hemail⟩, fun hnone ↦ ?_⟩
    obtain ⟨a, ha, huser⟩ := haccount hnone
    obtain ⟨a', ha', huser', -⟩ := hext.account a ha
    exact ⟨a', ha', huser'.trans huser⟩
  seen := h.seen

theorem KnowsUser.answered {email : JsString} {tr : List (Event AuthCall.Res)} {op : AuthCall}
    {r : op.Res} (hdb : Credentialed db) (h : KnowsUser email tr db)
    (hanswer : Answers db op r db') : KnowsUser email (tr ++ [⟨op, r⟩]) db' := by
  have h' := h.extends hanswer.effect.extends
  refine ⟨fun user rest htr ↦ ?_, fun user found rest htr hnone ↦ ?_⟩
  · rcases tr with _ | ⟨y, tr⟩
    · -- this is the answer that finds the user
      obtain ⟨hx, -⟩ := List.cons.inj htr
      cases hx
      obtain ⟨rfl, hfind⟩ := hanswer
      obtain ⟨huser, hemail⟩ := findByEmail_eq_some_iff.mp hfind.symm
      refine ⟨⟨user, huser, rfl, hemail⟩, fun hnone ↦ ?_⟩
      exact (hdb user huser).resolve_left (by simp [hnone])
    · obtain ⟨rfl, -⟩ := List.cons.inj htr
      exact h'.found user tr rfl
  · rcases tr with _ | ⟨y, _ | ⟨z, tr⟩⟩
    · cases htr
    · -- this is the answer with the accounts of the user found before
      obtain ⟨rfl, hx⟩ := List.cons.inj htr
      obtain ⟨hx, -⟩ := List.cons.inj hx
      cases hx
      obtain ⟨rfl, rfl⟩ := hanswer
      obtain ⟨⟨u, hu, hid, hemail⟩, haccount⟩ := h.found user [] rfl
      obtain ⟨a, ha, huser⟩ := haccount hnone
      rw [findWithAccounts, findByEmail_eq_some_iff.mpr ⟨hu, hemail⟩, Option.map_some,
        UsersRepository.someAccount, Bool.not_eq_true', List.isEmpty_eq_false_iff]
      exact List.ne_nil_of_mem (List.mem_filter.mpr ⟨ha, by simp [huser, hid]⟩)
    · obtain ⟨rfl, htail⟩ := List.cons.inj htr
      obtain ⟨rfl, -⟩ := List.cons.inj htail
      exact h'.seen user found tr rfl hnone

/-! ## Nothing is verified against `null` -/

/-- No process is about to compare a password or a token with `null`. -/
def VerifiesHashes (p : Pool AuthRequest AuthCall.Res Exception Reply AuthDatabase) : Prop :=
  ∀ proc ∈ p.processes, ∀ plain k, proc.rest ≠ .call (.verify none plain) k

theorem credentialed (hrun : AuthRun M .empty l p) : Credentialed p.shared :=
  Pool.shared_invariant (P := fun _ ↦ True) hrun (by simp [Credentialed, empty])
    (fun _ _ _ _ _ _ ↦ trivial) fun _ _ _ _ _ hanswer h ↦ h.effect hanswer.effect

/-- Every process knows its user, if it is a login. -/
theorem knowsUser (hrun : AuthRun M .empty l p) :
    ∀ proc ∈ p.processes, ∀ email, KnowsUser email proc.trace p.shared := by
  refine (Pool.local_invariant (I := Credentialed) (P := fun _ _ ↦ True)
    (J := fun _ tr db ↦ ∀ email, KnowsUser email tr db) hrun (by simp [Credentialed, empty])
    (fun _ _ _ _ _ _ ↦ trivial) (fun _ _ _ _ _ _ hanswer h ↦ h.effect hanswer.effect) ?_ ?_ ?_).2
  · intro request db _ email
    exact ⟨by simp, by simp⟩
  · intro request tr db op r db' _ hanswer hdb h email
    exact (h email).answered hdb hanswer
  · intro request other tr db op r db' _ hanswer _ h email
    exact (h email).extends hanswer.effect.extends

/-- In every state the service can reach, with any requests under way, every user has a password or
an account, and nothing is about to be verified against `null`. -/
theorem credentialed_and_verifiesHashes (hrun : AuthRun M .empty l p) :
    Credentialed p.shared ∧ VerifiesHashes p := by
  refine ⟨credentialed hrun, fun proc hproc plain k hrest ↦ ?_⟩
  -- carried on, the process would have the comparison in its trace
  obtain ⟨tr, out, heval⟩ := (Program.After.answered (.ok ())
    (hrest ▸ Pool.valid hrun proc hproc)).exists_eval
  obtain ⟨dto, user, found, rest, -, htr, hnone, hfound⟩ := login_of_verifies_null heval
    (e := ⟨.verify none plain, .ok ()⟩) (by simp) (by simp [AuthCall.verifiesHash])
  have hknows := knowsUser hrun proc hproc dto.email
  -- the two lookups come before the comparison, so they have been answered already
  rcases htrace : proc.trace with _ | ⟨x, _ | ⟨y, answered⟩⟩
  · rw [htrace] at htr
    cases htr
  · rw [htrace] at htr
    cases htr
  · rw [htrace] at htr
    obtain ⟨rfl, htail⟩ := List.cons.inj htr
    obtain ⟨rfl, -⟩ := List.cons.inj htail
    rw [hknows.seen user found answered htrace hnone] at hfound
    cases hfound

/-- A user comes from a provider and then tries a password. -/
theorem credentialed_and_verifiesHashes_oauth : ∃ l p, AuthRun plainModule .empty l p ∧
    p.shared.users.rows.map User.hash = [none] ∧ Credentialed p.shared ∧ VerifiesHashes p := by
  obtain ⟨l, hrun⟩ := World.exists_run (M := plainModule) .nil plainWorld rfl
    (.validateOAuthLogin ⟨[1], [101], none, true⟩ [1] [2] [103])
  obtain ⟨l', hrun'⟩ := World.exists_run hrun (plainWorld.serve plainModule _).2.2 rfl
    (.login ⟨[101], [110], [112], by simp, by simp, by simp⟩)
  exact ⟨_, _, hrun', by decide, credentialed_and_verifiesHashes hrun'⟩

end JudgeIt
