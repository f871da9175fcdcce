import JudgeIt.Auth.PlainModule
import JudgeIt.Auth.ResetTokens
import JudgeIt.Auth.Sequential

/-!
# What a new password revokes

Changing a password, or resetting it, writes the column of the password and nothing else about the
user. The refresh tokens that were accepted before still are, and so do the other reset tokens that
were mailed keep their effect. The one thing that is revoked is the reset token that has been used.
-/

namespace JudgeIt

open Async AuthDatabase

/-- A reset token with which the password can be changed, at the given time. -/
def Resettable (M : AuthModule) (db : AuthDatabase) (token : JsString) (date : ℤ) : Prop :=
  ∃ a db' newPassword reply, ServeStep M db a db' ∧
    a.request = .resetPassword ⟨newPassword, token⟩ ∧ a.outcome = .ok reply ∧
    (⟨.now, date⟩ : Event AuthCall.Res) ∈ a.trace

/-- The requests that change a password. -/
def AuthRequest.changesPassword : AuthRequest → Bool
  | .changePassword .. | .resetPassword _ => true
  | _ => false

variable {M : AuthModule} {db db' : AuthDatabase} {token : JsString} {date : ℤ} {w : World}
  {row : PasswordResetToken} {tr : List (Event AuthCall.Res)} {dto : ResetPasswordDto}

/-! ## Which reset tokens have an effect -/

theorem eval_serve_resetPassword {out : Except Exception Reply}
    (h : ((AuthRequest.resetPassword dto).serve M).Eval tr out) :
    ∃ out', Reset M dto tr out' ∧ out = out'.map .message := by
  rcases Program.eval_bind_iff.mp h with ⟨e, he, rfl⟩ | ⟨text, tr₁, tr₂, rfl, htext, rfl, rfl⟩
  · exact ⟨_, eval_resetPassword he, rfl⟩
  · rw [List.append_nil]
    exact ⟨_, eval_resetPassword htext, rfl⟩

theorem exists_reset_of_ok {reply : Reply}
    (h : ((AuthRequest.resetPassword dto).serve M).Eval tr (.ok reply)) :
    ∃ text, Reset M dto tr (.ok text) := by
  obtain ⟨out', hreset, hout⟩ := eval_serve_resetPassword h
  rcases out' with e | text
  · cases hout
  · exact ⟨text, hreset⟩

theorem Reset.of_ok {text : JsString} (h : Reset M dto tr (.ok text)) : ∃ row date salt,
    tr = [⟨.getPasswordResetToken (M.sha256 dto.token), .ok (some row)⟩, ⟨.now, date⟩,
      ⟨.hash dto.newPassword, .ok salt⟩,
      ⟨.changePassword row.userId (M.argon2.hash salt dto.newPassword), .ok ()⟩,
      ⟨.markTokenUsed row.id, .ok ()⟩] ∧ row.used = false ∧ ¬row.expiresAt < date := by
  generalize hout : (Except.ok text : Except Exception JsString) = out at h
  cases h with
  | @written row date salt r hused hdate =>
    rcases r with e | _
    · cases hout
    · exact ⟨row, date, salt, rfl, hused, hdate⟩
  | _ => cases hout

theorem World.exists_serve_reset (h : w.db.getPasswordResetToken (M.sha256 token) = some row)
    (hused : row.used = false) (hdate : ¬row.expiresAt < w.time) : ∃ reply tr,
    (w.serve M (.resetPassword ⟨List.replicate 8 0, token⟩)).1 =
      ⟨.getPasswordResetToken (M.sha256 token), .ok (some row)⟩ :: ⟨.now, w.time⟩ :: tr ∧
    (w.serve M (.resetPassword ⟨List.replicate 8 0, token⟩)).2.1 = .ok reply := by
  have huser : (w.db.users.find? row.userId).isSome :=
    AutoTable.isSome_find?_iff.mpr (w.db.token_user row (of_getPasswordResetToken h).1)
  have hrow : (w.db.resetTokens.find? row.id).isSome := by
    rw [AutoTable.find?_of_mem (of_getPasswordResetToken h).1]
    rfl
  let hashed := M.argon2.hash w.salt (List.replicate 8 0)
  have hchange : w.db.changePassword row.userId hashed =
      some (w.db.modifyUser row.userId fun h ↦ (some hashed, h.2)) :=
    changePassword_eq_some_iff.mpr ⟨huser, rfl⟩
  obtain ⟨db', hmark⟩ : ∃ db', (w.db.modifyUser row.userId fun h ↦
      (some hashed, h.2)).markTokenUsed row.id = some db' := ⟨_, if_pos hrow⟩
  have hlookup : respond (.getPasswordResetToken (M.sha256 token)) w = (.ok (some row), w) := by
    rw [respond, h]
  have hnow : ¬row.expiresAt < (respond .now w).1 := hdate
  simp only [serve, AuthRequest.serve, AuthService.resetPassword, AuthService.validateResetToken]
  simp only [PasswordResetRepository.getPasswordResetToken, Program.request, Program.bind,
    Program.bind_eq, Program.run, hlookup, Program.ofExcept, hused, Bool.false_eq_true, if_false,
    Program.pure_eq, if_neg hnow, List.length_replicate, lt_irrefl]
  simp only [hash, UsersRepository.changePassword, PasswordResetRepository.markTokenUsed,
    Program.request, Program.bind, Program.run, respond, Program.pure_eq, Program.ofExcept]
  rw [hchange]
  simp only [Option.map_some, write, Program.bind, Program.run, respond]
  rw [hmark]
  exact ⟨_, _, rfl, rfl⟩

/-- A reset token has an effect as long as its row is not marked and not too old. -/
theorem resettable_iff : Resettable M db token date ↔ ∃ row,
    db.getPasswordResetToken (M.sha256 token) = some row ∧ row.used = false ∧
      ¬row.expiresAt < date := by
  constructor
  · rintro ⟨⟨request, tr, out⟩, db', newPassword, reply, ⟨heval, hsteps⟩, rfl, rfl, hnow⟩
    obtain ⟨text, hreset⟩ := exists_reset_of_ok heval
    obtain ⟨row, date', salt, rfl, hused, hdate⟩ := hreset.of_ok
    obtain ⟨db₁, ⟨-, hrow⟩, -⟩ := hsteps
    obtain rfl : date = date' := by simpa using hnow
    exact ⟨row, hrow.symm, hused, hdate⟩
  · rintro ⟨row, hrow, hused, hdate⟩
    let w : World := ⟨db, date, [], [], [], fun _ ↦ .ok ()⟩
    obtain ⟨reply, tr, htr, hout⟩ := World.exists_serve_reset (w := w) hrow hused hdate
    exact ⟨_, _, _, reply, w.serveStep _, rfl, hout, by rw [htr]; simp [w]⟩

/-! ## What a password change leaves alone -/

theorem not_creates_of_changesPassword {request : AuthRequest} {out : Except Exception Reply}
    (h : request.changesPassword = true) (heval : (request.serve M).Eval tr out)
    {e : Event AuthCall.Res} (he : e ∈ tr) (userId : ℤ) (token : JsString) (expiresAt : ℤ) :
    e.1 ≠ .createPasswordResetToken userId token expiresAt := by
  cases request <;> cases h
  case changePassword id dto =>
    have hkeeps : (AuthService.changePassword M id dto).Keeps
        (Program.only fun op : AuthCall ↦ op.createsNone = true) () :=
      keeps_changePassword rfl (fun _ ↦ rfl) (fun _ _ ↦ rfl) rfl fun _ _ ↦ rfl
    have hnone := (hkeeps.bind fun _ ↦ Program.keeps_pure Reply.done).forall_mem heval e he
    rintro heq
    rw [heq] at hnone
    cases hnone
  case resetPassword dto =>
    obtain ⟨out', hreset, -⟩ := eval_serve_resetPassword heval
    exact hreset.not_create he userId token expiresAt

theorem not_logout_of_changesPassword {request : AuthRequest}
    (h : request.changesPassword = true) :
    request.identify M = none ∧ ∀ id, request ≠ .logout id := by
  cases request <;> cases h <;> exact ⟨rfl, by simp⟩

/-! ## A token that has been used -/

/-- The row with this number is marked. -/
def Marked (id : ℤ) (db : AuthDatabase) : Prop :=
  ∃ row ∈ db.resetTokens.rows, row.id = id ∧ row.used = true

theorem Marked.of_map {id : ℤ} {f : PasswordResetToken → PasswordResetToken} (h : Marked id db)
    (hrows : ∀ row ∈ db.resetTokens.rows, f row ∈ db'.resetTokens.rows)
    (hf : ∀ row, (f row).id = row.id ∧ (row.used = true → (f row).used = true)) :
    Marked id db' := by
  obtain ⟨row, hmem, rfl, hused⟩ := h
  exact ⟨f row, hrows row hmem, (hf row).1, (hf row).2 hused⟩

theorem Marked.answered {id : ℤ} {op : AuthCall} {r : op.Res} (h : Marked id db)
    (hanswer : Answers db op r db') : Marked id db' := by
  by_cases hcreate : ∃ userId token expiresAt, op = .createPasswordResetToken userId token expiresAt
  · obtain ⟨userId, token, expiresAt, rfl⟩ := hcreate
    rcases r with e | _
    · rwa [show db' = db from hanswer]
    · obtain ⟨createdAt, hcreate⟩ := hanswer
      refine h.of_map (f := fun row ↦ row) (fun row hrow ↦ ?_) fun row ↦ ⟨rfl, fun hused ↦ hused⟩
      rw [(of_createPasswordResetToken hcreate).2.2]
      exact List.mem_append_left _ hrow
  · push Not at hcreate
    by_cases hmark : IsMark ⟨op, r⟩
    · obtain ⟨id', hid'⟩ := hmark
      cases hid'
      refine h.of_map (f := fun t ↦ if t.id = id' then t.markUsed else t) (fun row hrow ↦ ?_)
        fun row ↦ ?_
      · rw [(of_markTokenUsed hanswer).2.2]
        exact List.mem_map_of_mem hrow
      · split
        · exact ⟨rfl, fun _ ↦ rfl⟩
        · exact ⟨rfl, fun hused ↦ hused⟩
    · have hsame := hanswer.effect.resetTokens_eq hcreate fun id' hid' ↦ hmark ⟨id', hid'⟩
      rwa [Marked, hsame]

theorem marked_of_markTokenUsed {id : ℤ} (h : db.markTokenUsed id = some db') : Marked id db' := by
  rw [AuthDatabase.markTokenUsed] at h
  split at h
  · next hsome =>
    obtain rfl := Option.some.inj h
    obtain ⟨row, hrow⟩ := Option.isSome_iff_exists.mp hsome
    obtain ⟨hmem, hid⟩ := AutoTable.find?_eq_some_iff.mp hrow
    refine ⟨row.markUsed, ?_, hid, rfl⟩
    exact (AutoTable.mem_modify fun _ ↦ PasswordResetToken.markUsed_id).mpr
      ⟨row, hmem, by rw [if_pos hid]⟩
  · cases h

variable {p p' : Pool AuthRequest AuthCall.Res Exception Reply AuthDatabase}
  {l : List (Pool AuthRequest AuthCall.Res Exception Reply AuthDatabase ×
    Pool.Action AuthRequest AuthCall.Res)} {a : Pool.Action AuthRequest AuthCall.Res}

/-- A row that a request has marked stays marked, whatever else goes on. -/
theorem marked_of_trace {s₀ : AuthDatabase} (hrun : AuthRun M s₀ l p) :
    ∀ proc ∈ p.processes, ∀ id, (⟨.markTokenUsed id, .ok ()⟩ : Event AuthCall.Res) ∈ proc.trace →
      Marked id p.shared := by
  refine (Pool.local_invariant (I := fun _ ↦ True) (P := fun _ _ ↦ True) (J := fun _ tr db ↦ ∀ id,
    (⟨.markTokenUsed id, .ok ()⟩ : Event AuthCall.Res) ∈ tr → Marked id db) hrun trivial
    (fun _ _ _ _ _ _ ↦ trivial) (fun _ _ _ _ _ _ _ _ ↦ trivial) ?_ ?_ ?_).2
  · intro request s _ id hmem
    cases hmem
  · intro request tr s op r s' _ hanswer _ h id hmem
    rcases List.mem_append.mp hmem with hmem | hmem
    · exact (h id hmem).answered hanswer
    · cases List.mem_singleton.mp hmem
      exact marked_of_markTokenUsed hanswer
  · intro request other tr s op r s' _ hanswer _ h id hmem
    exact (h id hmem).answered hanswer

/-! ## Steps of a password request -/

/-- The step leaves alone which refresh tokens are accepted, and which reset tokens have an effect
but for the one it marks. -/
structure RevokesOnlyMarked (M : AuthModule) (db : AuthDatabase) (x : Event AuthCall.Res)
    (db' : AuthDatabase) : Prop where
  accepts : ∀ userId rt, Accepts M db' userId rt ↔ Accepts M db userId rt
  resettable : ∀ token date, (∀ row, db.getPasswordResetToken (M.sha256 token) = some row →
      x ≠ ⟨.markTokenUsed row.id, .ok ()⟩) →
    (Resettable M db' token date ↔ Resettable M db token date)

theorem revokesOnlyMarked_of_answers {op : AuthCall} {r : op.Res} (hanswer : Answers db op r db')
    (hkeeps : op.keepsRt = true)
    (hcreate : ∀ userId token expiresAt, op ≠ .createPasswordResetToken userId token expiresAt) :
    RevokesOnlyMarked M db ⟨op, r⟩ db' where
  accepts userId rt := accepts_congr (by rw [hanswer.rtOf_eq, rtAfter_of_keepsRt hkeeps])
  resettable token date hmark := by
    rw [resettable_iff, resettable_iff]
    rcases lookup_answered hanswer hcreate with ⟨id, hevent, hlookup⟩ | ⟨-, hsame⟩
    · -- another row is marked
      have hother : (db.getPasswordResetToken (M.sha256 token)).map
          (fun t ↦ if t.id = id then t.markUsed else t) =
          db.getPasswordResetToken (M.sha256 token) := by
        cases hrow : db.getPasswordResetToken (M.sha256 token) with
        | none => rfl
        | some row =>
          rw [Option.map_some, if_neg]
          rintro rfl
          exact hmark row hrow hevent
      rw [hlookup, hother]
    · rw [getPasswordResetToken, hsame, ← getPasswordResetToken]

/-- A request that has been answered with success has used its token up: what lets the token through
again is another row. -/
theorem used_up {s₀ : AuthDatabase} (hrun : AuthRun M s₀ l p)
    {proc : Process AuthRequest AuthCall.Res Exception Reply} (hproc : proc ∈ p.processes)
    (hrequest : proc.request = .resetPassword dto) {reply : Reply}
    (hrest : proc.rest = .pure reply) :
    ∃ row, (⟨.getPasswordResetToken (M.sha256 dto.token), .ok (some row)⟩ : Event AuthCall.Res) ∈
        proc.trace ∧
      ∀ date, Resettable M p.shared dto.token date → ∃ row',
        p.shared.getPasswordResetToken (M.sha256 dto.token) = some row' ∧ row'.id ≠ row.id := by
  have hafter := Pool.valid hrun proc hproc
  rw [hrequest, hrest] at hafter
  have heval := hafter.eval (Program.eval_ofExcept (.ok reply))
  rw [List.append_nil] at heval
  obtain ⟨text, hreset⟩ := exists_reset_of_ok heval
  obtain ⟨row, date, salt, htr, -⟩ := hreset.of_ok
  refine ⟨row, by simp [htr], fun date hresettable ↦ ?_⟩
  obtain ⟨row', hrow', hunused, -⟩ := resettable_iff.mp hresettable
  refine ⟨row', hrow', fun hid ↦ ?_⟩
  obtain ⟨marked, hmem, hmarked, hused⟩ := marked_of_trace hrun proc hproc row.id (by simp [htr])
  have heq : row' = marked := List.inj_on_of_nodup_map p.shared.resetTokens.nodup
    (of_getPasswordResetToken hrow').1 hmem (hid.trans hmarked.symm)
  rw [heq, hused] at hunused
  cases hunused

/-- **What a new password revokes.** In every run, no call of a request that changes a password
affects which refresh tokens are accepted, or any reset token but the one it marks; and a request
that has reset a password has used its token up. -/
theorem changesPassword_revokes (hrun : AuthRun M .empty l p) :
    (∀ i x p' proc, Pool.Step (AuthRequest.serve M) Answers p (.answer i x) p' →
      p.processes[i]? = some proc → proc.request.changesPassword = true →
      RevokesOnlyMarked M p.shared x p'.shared) ∧
    ∀ proc ∈ p.processes, ∀ dto reply, proc.request = .resetPassword dto →
      proc.rest = .pure reply → ∃ row,
        (⟨.getPasswordResetToken (M.sha256 dto.token), .ok (some row)⟩ : Event AuthCall.Res) ∈
          proc.trace ∧
        ∀ date, Resettable M p.shared dto.token date → ∃ row',
          p.shared.getPasswordResetToken (M.sha256 dto.token) = some row' ∧ row'.id ≠ row.id := by
  refine ⟨?_, fun proc hproc dto reply hrequest hrest ↦ used_up hrun hproc hrequest hrest⟩
  intro i x p' proc hs hproc hchanges
  cases hs with
  | @answer i request tr op k r shared hi hanswer =>
    rw [hi, Option.some.injEq] at hproc
    subst hproc
    obtain ⟨rest, out, heval⟩ := (Program.After.answered r
      (Pool.valid hrun _ (List.mem_of_getElem? hi))).exists_eval
    obtain ⟨hid, hlogout⟩ := not_logout_of_changesPassword (M := M) hchanges
    exact revokesOnlyMarked_of_answers hanswer
      ((careful_serve hid hlogout).keepsRt heval ⟨op, r⟩ (by simp))
      (not_creates_of_changesPassword hchanges heval (e := ⟨op, r⟩) (by simp))

/-! ## Credentials that outlive two new passwords -/

/-- The world in which the next mail carries another token. -/
def secondMailWorld : World := { mailedWorld with randomBytes := [8] }

/-- The password is changed, and reset with the first token. -/
def newPasswordsWorld : World :=
  (((secondMailWorld.serve plainModule (.sendPasswordResetEmail registration.email)).2.2.serve
    plainModule (.changePassword 1 ⟨[49], [50]⟩)).2.2.serve
    plainModule (.resetPassword ⟨List.replicate 8 1, [5]⟩)).2.2

/-- A user registers, has two reset tokens mailed to him, changes his password, and resets it with
the first token. Afterwards the refresh token he was given first is accepted, and the second reset
token changes the password. -/
theorem exists_outlived : ∃ l p tr₁ tr₂ tr₃ tr₄ tr₅ tokens text, AuthRun plainModule .empty l p ∧
    p.processes = [⟨.register registration, tr₁, .pure (.tokens tokens)⟩,
      ⟨.sendPasswordResetEmail registration.email, tr₂, .pure .done⟩,
      ⟨.sendPasswordResetEmail registration.email, tr₃, .pure .done⟩,
      ⟨.changePassword 1 ⟨[49], [50]⟩, tr₄, .pure .done⟩,
      ⟨.resetPassword ⟨List.replicate 8 1, [5]⟩, tr₅, .pure (.message text)⟩] ∧
    Accepts plainModule p.shared 1 tokens.refresh_token ∧
      Resettable plainModule p.shared [8] 0 := by
  obtain ⟨l₁, h₁⟩ :=
    World.exists_run (M := plainModule) .nil plainWorld rfl (.register registration)
  obtain ⟨l₂, h₂⟩ := World.exists_run h₁ registeredWorld rfl
    (.sendPasswordResetEmail registration.email)
  obtain ⟨l₃, h₃⟩ := World.exists_run h₂ secondMailWorld rfl
    (.sendPasswordResetEmail registration.email)
  obtain ⟨l₄, h₄⟩ := World.exists_run h₃ (secondMailWorld.serve plainModule _).2.2 rfl
    (.changePassword 1 ⟨[49], [50]⟩)
  obtain ⟨l₅, h₅⟩ := World.exists_run h₄
    ((secondMailWorld.serve plainModule _).2.2.serve plainModule _).2.2 rfl
    (.resetPassword ⟨List.replicate 8 1, [5]⟩)
  refine ⟨_, _, _, _, _, _, _, _, _, h₅, rfl, ?_, ?_⟩
  · have hstored : newPasswordsWorld.db.rtOf 1 =
        some (plainModule.argon2.hash [4] registeredToken) := by decide
    exact (accepts_iff_of_rtOf hstored).mpr rfl
  · have hrow : newPasswordsWorld.db.getPasswordResetToken (plainModule.sha256 [8]) =
        some ⟨2, 1, plainModule.sha256 [8], 0, 900000, false⟩ := by decide
    exact resettable_iff.mpr ⟨_, hrow, rfl, by decide⟩

/-- A user registers, has a reset token mailed to him, and resets his password with it. It could be
used before, and has no effect any more. -/
theorem changesPassword_revokes_mailed : ∃ l p tr₁ tr₂ tr₃ tokens text,
    AuthRun plainModule .empty l p ∧
    p.processes = [⟨.register registration, tr₁, .pure (.tokens tokens)⟩,
      ⟨.sendPasswordResetEmail registration.email, tr₂, .pure .done⟩,
      ⟨.resetPassword ⟨List.replicate 8 1, [5]⟩, tr₃, .pure (.message text)⟩] ∧
    Resettable plainModule mailedWorld.db [5] 0 ∧ ¬Resettable plainModule p.shared [5] 0 := by
  obtain ⟨l₁, h₁⟩ :=
    World.exists_run (M := plainModule) .nil plainWorld rfl (.register registration)
  obtain ⟨l₂, h₂⟩ := World.exists_run h₁ registeredWorld rfl
    (.sendPasswordResetEmail registration.email)
  obtain ⟨l₃, h₃⟩ := World.exists_run h₂ mailedWorld rfl (.resetPassword ⟨List.replicate 8 1, [5]⟩)
  have hmailed : mailedWorld.db.getPasswordResetToken (plainModule.sha256 [5]) =
      some ⟨1, 1, plainModule.sha256 [5], 0, 900000, false⟩ := by decide
  refine ⟨_, _, _, _, _, _, _, h₃, rfl, resettable_iff.mpr ⟨_, hmailed, rfl, by decide⟩,
    fun hresettable ↦ ?_⟩
  obtain ⟨row, hmem, hused⟩ := (changesPassword_revokes h₃).2 _
    (List.mem_append_right _ List.mem_cons_self) _ _ rfl rfl
  obtain ⟨row', hrow', hne⟩ := hused 0 hresettable
  have htrace : (mailedWorld.serve plainModule (.resetPassword ⟨List.replicate 8 1, [5]⟩)).1 =
      [⟨.getPasswordResetToken (plainModule.sha256 [5]),
        .ok (some ⟨1, 1, plainModule.sha256 [5], 0, 900000, false⟩)⟩, ⟨.now, (0 : ℤ)⟩,
      ⟨.hash (List.replicate 8 1), .ok [4]⟩,
      ⟨.changePassword 1 (plainModule.argon2.hash [4] (List.replicate 8 1)), .ok ()⟩,
      ⟨.markTokenUsed 1, .ok ()⟩] := rfl
  have hlookup : (mailedWorld.serve plainModule (.resetPassword ⟨List.replicate 8 1,
      [5]⟩)).2.2.db.getPasswordResetToken (plainModule.sha256 [5]) =
        some ⟨1, 1, plainModule.sha256 [5], 0, 900000, true⟩ := by decide
  rw [htrace] at hmem
  obtain rfl : row' = ⟨1, 1, plainModule.sha256 [5], 0, 900000, true⟩ :=
    Option.some.inj (hrow'.symm.trans hlookup)
  simp at hmem
  rw [hmem] at hne
  exact hne rfl

end JudgeIt
