import JudgeIt.Auth.PlainModule
import JudgeIt.Auth.Sequential
import JudgeIt.Transition.Observed

/-!
# A refresh token is exchanged for another

A refresh stores the hash of the token it hands out over the hash of the one it was given, so the
token it was given is no longer accepted; and it should never be again. What the tables hold is the
hash of the last token, so that is a statement about tokens: no token handed out later may be equal
to one that has been exchanged. A token is a function of the payload and of the second it is stamped
with, and nothing else in it is new. The tokens that have been exchanged stay retired exactly as
long as no token is stored that says the same as one of them in the same second.
-/

namespace JudgeIt

open Async AuthDatabase Transition

/-- What a signed token says, and the second it is stamped with. -/
def signedAt : Event AuthCall.Res → Option (JwtPayload × ℤ)
  | ⟨.signAsync payload _, .ok iat⟩ => some (payload, iat)
  | _ => none

/-- The request stores a refresh token with this payload that was stamped in this second: the
refresh token is the last one that is signed. -/
def Served.Issues (a : Served) (payload : JwtPayload) (iat : ℤ) : Prop :=
  (a.trace.filterMap signedAt).getLast? = some (payload, iat) ∧
    ∃ rt, storing payload.sub rt ∈ a.trace

/-- The tables, and the tokens that have been exchanged so far with their users. -/
abbrev Exchanges := AuthDatabase × List (ℤ × JsString)

/-- The steps of a sequential run, with a list of the tokens that are exchanged. -/
abbrev ExchangeStep (M : AuthModule) : Exchanges → Served → Exchanges → Prop :=
  Observed (ServeStep M) fun exchanged _ a ↦ exchanged ++ a.exchanged.toList

/-- No token that has been exchanged is accepted. -/
def Retired (M : AuthModule) (s : Exchanges) : Prop := ∀ x ∈ s.2, ¬Accepts M s.1 x.1 x.2

/-- A refresh token the request stores does not say the same, in the same second, as a token of that
user that has been exchanged or is presented now. -/
def SignsAnew (M : AuthModule) (s : Exchanges) (a : Served) : Prop :=
  ∀ payload iat rt, a.Issues payload iat →
    (payload.sub, rt) ∈ s.2 ∨ a.request = .refreshTokens payload.sub rt →
    M.jwtService.verify M.config.REFRESH_TOKEN_SECRET rt ≠ some (payload, iat)

/-- Stored hashes are of signed tokens, and signed tokens are what has been exchanged. -/
structure Signed (M : AuthModule) (s : Exchanges) : Prop where
  stored : ∀ userId rt, s.1.rtOf userId = some rt → ∃ salt payload iat,
    rt = M.argon2.hash salt (M.jwtService.sign M.refreshOptions payload iat)
  exchanged : ∀ x ∈ s.2, ∃ payload iat, x.2 = M.jwtService.sign M.refreshOptions payload iat

variable {M : AuthModule} {s s' : Exchanges} {a : Served} {payload : JwtPayload} {iat : ℤ}
  {l : List (Exchanges × Served)} {userId : ℤ} {rt : JsString} {db : AuthDatabase}

/-! ## What a request issues -/

theorem not_issues (h : ∀ id rt, storing id rt ∉ a.trace) : ¬a.Issues payload iat :=
  fun hissues ↦ by
    obtain ⟨rt, hmem⟩ := hissues.2
    exact h _ rt hmem

theorem issues_iff {tr : List (Event AuthCall.Res)} {payload' : JwtPayload} {iat' iat'' : ℤ}
    {salt : JsString} (h : a.trace = tr ++ sessionTrace M payload' iat'' iat' salt) :
    a.Issues payload iat ↔ payload = payload' ∧ iat = iat' := by
  have hlast : (a.trace.filterMap signedAt).getLast? = some (payload', iat') := by
    have hsession : (sessionTrace M payload' iat'' iat' salt).filterMap signedAt =
        [(payload', iat''), (payload', iat')] := rfl
    rw [h, List.filterMap_append, hsession]
    simp
  rw [Served.Issues, hlast, Option.some.injEq, Prod.mk.injEq]
  constructor
  · rintro ⟨⟨rfl, rfl⟩, -⟩
    exact ⟨rfl, rfl⟩
  · rintro ⟨rfl, rfl⟩
    refine ⟨⟨rfl, rfl⟩, M.argon2.hash salt (tokensAt M payload iat'' iat).refresh_token, ?_⟩
    rw [h]
    exact List.mem_append_right _ (by simp [sessionTrace])

theorem exchanged_eq_some_iff {reply : Reply} (h : a.outcome = .ok reply) {x : ℤ × JsString} :
    a.exchanged = some x ↔ a.request = .refreshTokens x.1 x.2 := by
  obtain ⟨request, tr, out⟩ := a
  cases h
  cases request <;> simp [Served.exchanged, Prod.ext_iff]

/-- The user of a session that a refresh starts is the one whose token it was. -/
theorem sub_of_refresh {x : Authing User} {user : User} {tr : List (Event AuthCall.Res)}
    {db₁ : AuthDatabase} (hid : a.request.identify M = some x) (hx : x.Eval tr (.ok user))
    (hsteps : Answers.Steps db tr db₁) (hrequest : a.request = .refreshTokens userId rt) :
    user.id = userId ∧ ∃ stored, db.rtOf userId = some stored ∧
      M.argon2.verify stored rt = .ok true := by
  rw [hrequest] at hid
  cases hid
  obtain ⟨stored, rfl, hstored, -, hverify⟩ := eval_checkRefreshToken hx rfl
  obtain ⟨_, ⟨-, hfind⟩, -⟩ := hsteps
  have hrt : db.rtOf userId = user.hashedRt := by
    rw [rtOf, ← findById, ← hfind, Option.bind_some]
  exact ⟨(AutoTable.find?_eq_some_iff.mp hfind.symm).2, stored, by rw [hrt, hstored], hverify⟩

theorem rtOf_empty : empty.rtOf userId = none := rfl

/-! ## The invariant -/

theorem Signed.step (h : Signed M s) (hs : ExchangeStep M s a s') : Signed M s' := by
  obtain ⟨hserve, hrecord⟩ := hs
  replace hrecord : s'.2 = s.2 ++ a.exchanged.toList := hrecord
  cases hserve.rtChange with
  | kept hrt _ hnone =>
    refine ⟨fun userId rt hstored ↦ h.stored userId rt (hrt userId ▸ hstored), ?_⟩
    rw [hrecord, hnone]
    simpa using h.exchanged
  | loggedOut id hrt _ hnone =>
    refine ⟨fun userId rt hstored ↦ ?_, ?_⟩
    · rw [hrt] at hstored
      split at hstored
      · cases hstored
      · exact h.stored userId rt hstored
    · rw [hrecord, hnone]
      simpa using h.exchanged
  | started iat iat' salt hid hx hsteps hpayload htr hout hrt =>
    refine ⟨fun userId rt hstored ↦ ?_, fun x hmem ↦ ?_⟩
    · rw [hrt] at hstored
      split at hstored
      · exact ⟨salt, _, iat', (Option.some.inj hstored).symm⟩
      · exact h.stored userId rt hstored
    rw [hrecord] at hmem
    rcases List.mem_append.mp hmem with hmem | hmem
    · exact h.exchanged x hmem
    -- what is exchanged now has been compared with a stored hash
    have hrequest := (exchanged_eq_some_iff hout).mp (Option.mem_toList.mp hmem)
    obtain ⟨-, stored, hstored, hverify⟩ := sub_of_refresh hid hx hsteps hrequest
    obtain ⟨salt', payload, iat, rfl⟩ := h.stored _ _ hstored
    rw [M.argon2.verify_hash, Except.ok.injEq, decide_eq_true_eq] at hverify
    exact ⟨payload, iat, hverify⟩

/-! ## Which steps lose it -/

theorem retired_iff {salt : JsString} {iat' : ℤ} (hP : Retired M s)
    (hsub : ∀ userId rt, a.request = .refreshTokens userId rt → payload.sub = userId)
    (hmem : ∀ x, x ∈ s'.2 ↔ x ∈ s.2 ∨ a.request = .refreshTokens x.1 x.2)
    (hrt : ∀ userId, s'.1.rtOf userId = if userId = payload.sub then
      some (M.argon2.hash salt (tokensAt M payload iat iat').refresh_token) else s.1.rtOf userId) :
    Retired M s' ↔ ∀ rt, (payload.sub, rt) ∈ s'.2 →
      rt ≠ (tokensAt M payload iat iat').refresh_token := by
  have haccepts (rt : JsString) : Accepts M s'.1 payload.sub rt ↔
      rt = (tokensAt M payload iat iat').refresh_token :=
    accepts_iff_of_rtOf (by rw [hrt, if_pos rfl])
  constructor
  · intro h rt hrt hmem
    exact h _ hrt ((haccepts rt).mpr hmem)
  · rintro h ⟨userId, rt⟩ hx
    by_cases huser : userId = payload.sub
    · subst huser
      exact fun hacc ↦ h rt hx ((haccepts rt).mp hacc)
    · have hsame : s'.1.rtOf userId = s.1.rtOf userId := by rw [hrt, if_neg huser]
      rw [accepts_congr hsame]
      rcases (hmem _).mp hx with hold | hnew
      · exact hP _ hold
      · exact absurd (hsub _ _ hnew).symm huser

theorem retired_iff_signsAnew (h : Signed M s) (hP : Retired M s) (hs : ExchangeStep M s a s') :
    Retired M s' ↔ SignsAnew M s a := by
  have h' := h.step hs
  obtain ⟨hserve, hrecord⟩ := hs
  replace hrecord : s'.2 = s.2 ++ a.exchanged.toList := hrecord
  cases hserve.rtChange with
  | kept hrt hnot hnone =>
    rw [hnone, Option.toList_none, List.append_nil] at hrecord
    refine iff_of_true (fun x hx ↦ ?_) fun payload iat rt hissues ↦ absurd hissues (not_issues hnot)
    rw [accepts_congr (hrt x.1)]
    exact hP x (by rwa [← hrecord])
  | loggedOut id hrt hnot hnone =>
    rw [hnone, Option.toList_none, List.append_nil] at hrecord
    refine iff_of_true (fun x hx ↦ ?_) fun payload iat rt hissues ↦ absurd hissues (not_issues hnot)
    by_cases hid : x.1 = id
    · exact not_accepts_of_rtOf (by rw [hrt, if_pos hid])
    · have hsame : s'.1.rtOf x.1 = s.1.rtOf x.1 := by rw [hrt, if_neg hid]
      rw [accepts_congr hsame]
      exact hP x (by rwa [← hrecord])
  | @started x user tr db₁ payload iat iat' salt hid hx hsteps hpayload htr hout hrt =>
    -- only now is a hash stored, and the token exchanged for it joins those exchanged before
    have hmem (y : ℤ × JsString) : y ∈ s'.2 ↔ y ∈ s.2 ∨ a.request = .refreshTokens y.1 y.2 := by
      rw [hrecord, List.mem_append, Option.mem_toList, ← exchanged_eq_some_iff hout]
    have hsub (userId : ℤ) (rt : JsString) (hrequest : a.request = .refreshTokens userId rt) :
        payload.sub = userId := by
      rw [hpayload]
      exact (sub_of_refresh hid hx hsteps hrequest).1
    rw [retired_iff hP hsub hmem hrt]
    constructor
    · rintro hne payload' iat'' rt hissues hexchanged hverify
      obtain ⟨rfl, rfl⟩ := (issues_iff htr).mp hissues
      have hrt' := (hmem (payload'.sub, rt)).mpr hexchanged
      obtain ⟨payload, iat₀, rfl⟩ : ∃ payload iat, rt = _ := h'.exchanged _ hrt'
      rw [show M.config.REFRESH_TOKEN_SECRET = M.refreshOptions.secret from rfl,
        M.jwtService.verify_sign, Option.some.injEq, Prod.mk.injEq] at hverify
      obtain ⟨rfl, rfl⟩ := hverify
      exact hne _ hrt' rfl
    · rintro hanew rt hrt' rfl
      exact hanew payload iat' _ ((issues_iff htr).mpr ⟨rfl, rfl⟩) ((hmem _).mp hrt')
        (M.jwtService.verify_sign M.refreshOptions payload iat')

theorem retired_nil (db : AuthDatabase) : Retired M (db, []) := fun _ hx ↦ by cases hx

/-- **Exchanged tokens stay retired exactly as long as every token that is stored is new**: it says
something else, or is stamped in another second, than those of its user that have been exchanged. -/
theorem always_retired_iff_meets (hrun : Run (ExchangeStep M) (.empty, []) l s) :
    Always (Retired M) l s ↔ Meets (SignsAnew M) l :=
  hrun.always_iff_meets (I := Signed M) ⟨fun userId rt h ↦ by simp [rtOf_empty] at h, by simp⟩
    (retired_nil _) (fun _ _ _ h hs ↦ h.step hs) fun _ _ _ h hP hs ↦ retired_iff_signsAnew h hP hs

/-! ## Two refreshes in a second -/

theorem exchangeStep_serve (w : World) (exchanged : List (ℤ × JsString)) (request : AuthRequest) :
    ExchangeStep M (w.db, exchanged) ⟨request, (w.serve M request).1, (w.serve M request).2.1⟩
      ((w.serve M request).2.2.db, exchanged ++
        (Served.exchanged ⟨request, (w.serve M request).1, (w.serve M request).2.1⟩).toList) :=
  ⟨w.serveStep request, rfl⟩

/-- Exchanging it. -/
def refreshRequest : AuthRequest := .refreshTokens 1 registeredToken

/-- In the second of the registration the token is exchanged, and then exchanged again: what it was
exchanged for was the same token. -/
theorem exchanged_twice : ∃ l s, Run (ExchangeStep plainModule) (.empty, []) l s ∧
    s.2 = [(1, registeredToken), (1, registeredToken)] ∧ ¬Always (Retired plainModule) l s := by
  refine ⟨_, _, ((Run.nil.snoc (exchangeStep_serve plainWorld [] (.register registration))).snoc
    (exchangeStep_serve registeredWorld _ refreshRequest)).snoc
    (exchangeStep_serve (registeredWorld.serve plainModule refreshRequest).2.2 _ refreshRequest),
    by decide, fun hall ↦ ?_⟩
  have hstored : ((registeredWorld.serve plainModule refreshRequest).2.2.serve plainModule
      refreshRequest).2.2.db.rtOf 1 = some (plainModule.argon2.hash [4] registeredToken) := by
    decide
  exact hall.2 (1, registeredToken) (by decide) ((accepts_iff_of_rtOf hstored).mpr rfl)

/-- A second later the token is exchanged for a new one. -/
theorem meets_signsAnew_later : ∃ l s, Run (ExchangeStep plainModule) (.empty, []) l s ∧
    s.2 = [(1, registeredToken)] ∧ Meets (SignsAnew plainModule) l := by
  let later : World := { registeredWorld with time := 1000 }
  have hrun := (Run.nil.snoc (exchangeStep_serve (M := plainModule) plainWorld []
    (.register registration))).snoc (exchangeStep_serve later _ refreshRequest)
  refine ⟨_, _, hrun, by decide, (always_retired_iff_meets hrun).mp ?_⟩
  have hstored : (later.serve plainModule refreshRequest).2.2.db.rtOf 1 = some
      (plainModule.argon2.hash [4]
        (tokensAt plainModule ⟨1, [97], some [.USER]⟩ 0 1).refresh_token) := by
    decide
  refine always_snoc.mpr ⟨always_snoc.mpr ⟨⟨by simp, retired_nil _⟩, retired_nil _⟩, fun x hx ↦ ?_⟩
  rw [List.mem_singleton.mp hx, accepts_iff_of_rtOf hstored]
  decide

end JudgeIt
