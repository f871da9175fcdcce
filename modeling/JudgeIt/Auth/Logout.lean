import JudgeIt.Auth.PlainModule
import JudgeIt.Auth.Sequential
import JudgeIt.Transition.Observed

/-!
# After a logout

A logout removes the stored hash, and a refresh without a stored hash is denied. A request that is
already past its checks when the hash is removed is not stopped by that: its last call stores a hash
whatever is there. A logout therefore holds, for as long as nobody logs in afresh, exactly when no
request that was accepted before it stores a hash after it.
-/

namespace JudgeIt

open Async AuthDatabase Transition

/-- The state of the service. -/
abbrev AuthPool := Pool AuthRequest AuthCall.Res Exception Reply AuthDatabase

/-- The request is a refresh. -/
def AuthRequest.refreshes : AuthRequest → Bool
  | refreshTokens .. => true
  | _ => false

/-- Process `i` is a refresh. -/
def Refreshes (p : AuthPool) (i : ℕ) : Prop := ∃ proc, p.processes[i]? = some proc ∧
  proc.request.refreshes = true

instance (p : AuthPool) (i : ℕ) : Decidable (Refreshes p i) :=
  decidable_of_iff ((p.processes[i]?.any fun proc ↦ proc.request.refreshes) = true)
    (by simp [Refreshes, Option.any_eq_true])

/-- A record of logouts. -/
structure Logouts where
  /-- How many requests had been accepted when the user was last logged out, unless he has logged in
  since. -/
  since : ℤ → Option ℕ
  /-- The users who have been given new tokens by a refresh while logged out. -/
  refreshed : List ℤ

namespace Logouts

/-- No logout yet. -/
def none : Logouts := ⟨fun _ ↦ .none, []⟩

/-- The record with another entry for a user. -/
def put (g : Logouts) (userId : ℤ) (n : Option ℕ) : Logouts :=
  { g with since := fun id ↦ if id = userId then n else g.since id }

/-- The record after a step. A login that was accepted after the logout ends it. -/
def record (g : Logouts) (p : AuthPool) : Pool.Action AuthRequest AuthCall.Res → Logouts
  | .answer _ ⟨.deleteRt userId, .ok _⟩ => g.put userId (some p.processes.length)
  | .answer i ⟨.updateRtHash userId _, .ok _⟩ =>
    match g.since userId with
    | .none => g
    | some n =>
      if Refreshes p i then { g with refreshed := userId :: g.refreshed }
      else if n ≤ i then g.put userId .none
      else g
  | _ => g

end Logouts

/-- The service under observation. -/
abbrev LogoutStep (M : AuthModule) : AuthPool × Logouts → Pool.Action AuthRequest AuthCall.Res →
    AuthPool × Logouts → Prop :=
  Observed (Pool.Step (AuthRequest.serve M) Answers) Logouts.record

/-- Whoever is logged out has no stored hash, and nobody has refreshed while logged out. -/
structure LogoutsHold (s : AuthPool × Logouts) : Prop where
  removed : ∀ userId, (s.2.since userId).isSome → s.1.shared.rtOf userId = none
  denied : s.2.refreshed = []

/-- A request stores a hash for a user who is logged out only if it was accepted after that. -/
def StoresAfresh (s : AuthPool × Logouts) (a : Pool.Action AuthRequest AuthCall.Res) : Prop :=
  ∀ i userId rt n, a = .answer i (storing userId rt) → s.2.since userId = some n → n ≤ i

variable {M : AuthModule} {s₀ db db' : AuthDatabase} {p : AuthPool} {s s' : AuthPool × Logouts}
  {a : Pool.Action AuthRequest AuthCall.Res} {userId : ℤ}
  {l : List ((AuthPool × Logouts) × Pool.Action AuthRequest AuthCall.Res)}

/-! ## What a refresh has read -/

/-- The stored hash of the user is read, and there is one. -/
def ReadsRt (userId : ℤ) (x : Event AuthCall.Res) : Prop :=
  ∃ user, x = ⟨.findById userId, .ok (some user)⟩ ∧ JsString.truthy user.hashedRt = true

theorem Session.sub_of_mem {payload : JwtPayload} {tr : List (Event AuthCall.Res)}
    {out : Except Exception Tokens} (h : Session M payload tr out) {rt : JsString}
    (hmem : storing userId rt ∈ tr) : payload.sub = userId := by
  cases h <;> simp [storing] at hmem
  exact hmem.1.1.symm

/-- A refresh that stores a hash has found one stored. -/
theorem readsRt_of_storing {id : ℤ} {rt hashed : JsString} {tr rest : List (Event AuthCall.Res)}
    {out : Except Exception Reply}
    (h : ((AuthRequest.refreshTokens id rt).serve M).Eval (tr ++ storing userId hashed :: rest) out)
    (hids : ∀ user, (⟨.findById id, .ok (some user)⟩ : Event AuthCall.Res) ∈ tr → user.id = id) :
    ∃ x ∈ tr, ReadsRt userId x := by
  have hidentify : (AuthRequest.refreshTokens id rt).identify M = some _ := rfl
  rcases AuthRequest.eval_serve hidentify h with ⟨e, hx, -⟩ |
    ⟨user, tr₁, tr₂, out', htr, hx, hsession, -⟩
  · exact absurd (by simp)
      (storing_notMem_of_keepsRt (keepsRt_of_identify hidentify hx) userId hashed)
  have hkeeps := keepsRt_of_identify hidentify hx
  obtain ⟨stored, rfl, hstored, hne, -⟩ := eval_checkRefreshToken hx rfl
  have hsub : user.id = userId := by
    have hmem : storing userId hashed ∈ tr ++ storing userId hashed :: rest := by simp
    rw [htr] at hmem
    exact hsession.sub_of_mem
      ((List.mem_append.mp hmem).resolve_left (storing_notMem_of_keepsRt hkeeps userId hashed))
  -- the lookup comes first
  rcases tr with _ | ⟨y, tr⟩
  · cases (List.cons.inj htr).1
  obtain ⟨rfl, -⟩ := List.cons.inj htr
  obtain rfl : userId = id := hsub ▸ hids user List.mem_cons_self
  exact ⟨_, List.mem_cons_self, user, rfl, JsString.truthy_iff.mpr ⟨stored, hstored, hne⟩⟩

theorem isSome_of_readsRt {op : AuthCall} {r : op.Res} (hanswer : Answers db op r db')
    (h : ReadsRt userId ⟨op, r⟩) : (db.rtOf userId).isSome := by
  obtain ⟨user, hevent, htruthy⟩ := h
  cases hevent
  obtain ⟨-, hfind⟩ := hanswer
  obtain ⟨stored, hstored, -⟩ := JsString.truthy_iff.mp htruthy
  rw [rtOf, ← findById, ← hfind, Option.bind_some, hstored]
  rfl

/-! ## The invariant -/

/-- What a refresh has read before a logout it has read as a request accepted before it. -/
structure ReadsBefore (M : AuthModule) (s₀ : AuthDatabase) (s : AuthPool × Logouts) : Prop where
  reached : ∃ l, AuthRun M s₀ l s.1
  read : ∀ i userId n, s.1.Did (ReadsRt userId) i → s.2.since userId = some n → i < n

/-- A logout that the record shows has been shown before, or is the one of this step. -/
theorem Logouts.since_record {g : Logouts} {n : ℕ} (h : (g.record p a).since userId = some n) :
    g.since userId = some n ∨ n = p.processes.length ∧
      ∃ i r, a = .answer i ⟨.deleteRt userId, .ok r⟩ := by
  unfold record at h
  split at h
  · next i id r =>
    dsimp only [put] at h
    split at h
    · next heq => exact Or.inr ⟨(Option.some.inj h).symm, i, r, by rw [heq]⟩
    · exact Or.inl h
  · next i id rt r =>
    split at h
    · exact Or.inl h
    split at h
    · exact Or.inl h
    split at h
    · dsimp only [put] at h
      split at h
      · cases h
      · exact Or.inl h
    · exact Or.inl h
  · exact Or.inl h

theorem ReadsBefore.step (h : ReadsBefore M s₀ s) (hP : LogoutsHold s) (hs : LogoutStep M s a s') :
    ReadsBefore M s₀ s' := by
  obtain ⟨l, hrun⟩ := h.reached
  obtain ⟨p, g⟩ := s
  obtain ⟨p', g'⟩ := s'
  obtain ⟨hstep, rfl⟩ : Pool.Step (AuthRequest.serve M) Answers p a p' ∧ g' = g.record p a := hs
  refine ⟨⟨_, hrun.snoc hstep⟩, fun i userId n hdid hsince ↦ ?_⟩
  cases hstep with
  | accept request =>
    exact h.read i userId n (Pool.did_accepted.mp hdid) hsince
  | @answer k request tr op cont r shared hk hanswer =>
    rcases Logouts.since_record hsince with hsince | ⟨rfl, j, r', hlogout⟩
    · rcases (Pool.did_answered hk).mp hdid with hdid | ⟨-, hread⟩
      · exact h.read i userId n hdid hsince
      · -- whoever is logged out has no hash to be read
        have hsome := isSome_of_readsRt hanswer hread
        rw [hP.removed userId (by rw [hsince]; rfl)] at hsome
        cases hsome
    · rcases (Pool.did_answered hk).mp hdid with ⟨proc, hproc, -⟩ | ⟨rfl, -⟩
      · exact (List.getElem?_eq_some_iff.mp hproc).1
      · exact (List.getElem?_eq_some_iff.mp hk).1

/-! ## Which steps lose it -/

theorem ReadsBefore.lt_of_refreshes (h : ReadsBefore M s₀ s) {i n : ℕ} {request : AuthRequest}
    {tr : List (Event AuthCall.Res)} {rt : JsString} {cont : Except Exception Unit → Authing Reply}
    (hi : s.1.processes[i]? = some ⟨request, tr, .call (.updateRtHash userId rt) cont⟩)
    (hrefresh : request.refreshes = true) (hsince : s.2.since userId = some n) : i < n := by
  obtain ⟨l, hrun⟩ := h.reached
  have hmem := List.mem_of_getElem? hi
  obtain ⟨rest, out, heval⟩ := (Program.After.answered (.ok ())
    (Pool.valid hrun _ hmem)).exists_eval
  obtain ⟨id, presented, rfl⟩ : ∃ id presented, request = .refreshTokens id presented := by
    cases request <;> first | exact ⟨_, _, rfl⟩ | cases hrefresh
  have hids (user : User) (huser : (⟨.findById id, .ok (some user)⟩ : Event AuthCall.Res) ∈ tr) :
      user.id = id := by
    -- the table has answered with the row of that number
    refine Pool.forall_mem_trace (Q := fun x : Event AuthCall.Res ↦ ∀ id user,
      x = ⟨.findById id, .ok (some user)⟩ → user.id = id) hrun ?_ _ hmem _ huser id user rfl
    rintro db op r db' hanswer id user hevent
    cases hevent
    exact (AutoTable.find?_eq_some_iff.mp hanswer.2.symm).2
  obtain ⟨x, hx, hread⟩ := readsRt_of_storing (by simpa [storing] using heval) hids
  exact h.read i userId n ⟨_, hi, x, hx, hread⟩ hsince

/-- A step that neither stores nor removes a hash keeps the logouts. -/
theorem logoutsHold_of_eq {g : Logouts} {p' : AuthPool} (hP : LogoutsHold (p, g))
    (hrt : ∀ userId, p'.shared.rtOf userId = p.shared.rtOf userId) : LogoutsHold (p', g) :=
  ⟨fun userId hsome ↦ (hrt userId).trans (hP.removed userId hsome), hP.denied⟩

/-- **What a stored hash does to the record**, for a user who is logged in and for one who is logged
out: a refresh is noted, and a login ends the logout when it was accepted after it. -/
theorem Logouts.record_storing (g : Logouts) (p : AuthPool) (k : ℕ) (userId : ℤ) (rt : JsString) :
    (g.since userId = .none ∧ g.record p (.answer k (storing userId rt)) = g) ∨
    ∃ n, g.since userId = some n ∧
      ((Refreshes p k ∧ g.record p (.answer k (storing userId rt)) =
          { g with refreshed := userId :: g.refreshed }) ∨
        (n ≤ k ∧ g.record p (.answer k (storing userId rt)) = g.put userId .none) ∨
        (¬n ≤ k ∧ g.record p (.answer k (storing userId rt)) = g)) := by
  cases hsince : g.since userId with
  | none => exact Or.inl ⟨rfl, by simp [record, storing, hsince]⟩
  | some n =>
    refine Or.inr ⟨n, rfl, ?_⟩
    by_cases hrefresh : Refreshes p k
    · exact Or.inl ⟨hrefresh, by simp [record, storing, hsince, hrefresh]⟩
    by_cases hn : n ≤ k
    · exact Or.inr (Or.inl ⟨hn, by simp [record, storing, hsince, hrefresh, hn]⟩)
    · exact Or.inr (Or.inr ⟨hn, by simp [record, storing, hsince, hrefresh, hn]⟩)

theorem storesAfresh_storing_iff {g : Logouts} {k : ℕ} {rt : JsString} :
    StoresAfresh (p, g) (.answer k (storing userId rt)) ↔
      ∀ n, g.since userId = some n → n ≤ k := by
  constructor
  · intro hok n hn
    exact hok k userId rt n rfl hn
  · rintro hok i id rt' n ⟨⟩ hn
    exact hok n hn

theorem ReadsBefore.storing_iff {g : Logouts} (h : ReadsBefore M s₀ (p, g))
    (hP : LogoutsHold (p, g)) {k : ℕ} {request : AuthRequest} {tr : List (Event AuthCall.Res)}
    {rt : JsString} {cont : Except Exception Unit → Authing Reply} {rest : Authing Reply}
    (hk : p.processes[k]? = some ⟨request, tr, .call (.updateRtHash userId rt) cont⟩)
    (hanswer : Answers p.shared (.updateRtHash userId rt) (.ok ()) db') :
    LogoutsHold (p.answered k (storing userId rt) rest db',
      g.record p (.answer k (storing userId rt))) ↔
    StoresAfresh (p, g) (.answer k (storing userId rt)) := by
  have hrt (id : ℤ) : db'.rtOf id = if id = userId then some rt else p.shared.rtOf id :=
    hanswer.rtOf_eq
  rw [storesAfresh_storing_iff]
  rcases g.record_storing p k userId rt with ⟨hsince, hrecord⟩ | ⟨n, hsince,
    ⟨hrefresh, hrecord⟩ | ⟨hn, hrecord⟩ | ⟨hn, hrecord⟩⟩
  -- nobody is logged out by this
  · rw [hrecord]
    refine iff_of_true ⟨fun id hsome ↦ ?_, hP.denied⟩ (by simp [hsince])
    rw [Pool.shared_answered, hrt, if_neg, hP.removed id hsome]
    rintro rfl
    rw [hsince] at hsome
    cases hsome
  -- a refresh has read a hash, which was there before the logout
  · have hrequest : request.refreshes = true := by
      obtain ⟨proc, hproc, hproc'⟩ := hrefresh
      rw [hk, Option.some.injEq] at hproc
      rwa [← hproc] at hproc'
    rw [hrecord]
    refine iff_of_false (fun hP' ↦ ?_) fun hok ↦
      absurd (hok n hsince) (not_le.mpr (h.lt_of_refreshes hk hrequest hsince))
    cases hP'.denied
  -- a login ends the logout
  · rw [hrecord]
    refine iff_of_true ⟨fun id hsome ↦ ?_, hP.denied⟩ fun m hm ↦ by
      rw [hsince] at hm
      exact Option.some.inj hm ▸ hn
    by_cases hid : id = userId
    · simp [Logouts.put, hid] at hsome
    · rw [Pool.shared_answered, hrt, if_neg hid]
      exact hP.removed id (by simpa [Logouts.put, hid] using hsome)
  -- a login from before the logout stores its hash over it
  · rw [hrecord]
    refine iff_of_false (fun hP' ↦ ?_) fun hok ↦ hn (hok n hsince)
    have hnone := hP'.removed userId (by rw [hsince]; rfl)
    rw [Pool.shared_answered, hrt, if_pos rfl] at hnone
    cases hnone

theorem logoutsHold_iff (h : ReadsBefore M s₀ s) (hP : LogoutsHold s) (hs : LogoutStep M s a s') :
    LogoutsHold s' ↔ StoresAfresh s a := by
  obtain ⟨p, g⟩ := s
  obtain ⟨p', g'⟩ := s'
  obtain ⟨hstep, rfl⟩ : Pool.Step (AuthRequest.serve M) Answers p a p' ∧ g' = g.record p a := hs
  cases hstep with
  | accept request =>
    exact iff_of_true (logoutsHold_of_eq hP fun _ ↦ rfl) (by rintro i userId rt n ⟨⟩)
  | @answer k request tr op cont r shared hk hanswer =>
    have hrt (userId : ℤ) : shared.rtOf userId = _ := hanswer.rtOf_eq
    cases op with
    | deleteRt id =>
      refine iff_of_true ?_ (by rintro i userId rt n ⟨⟩)
      rcases r with e | _
      · exact logoutsHold_of_eq hP hrt
      · refine ⟨fun userId hsome ↦ ?_, hP.denied⟩
        rw [Pool.shared_answered, hrt, rtAfter]
        split
        · rfl
        · next hne =>
          exact hP.removed userId (by simpa [Logouts.record, Logouts.put, hne] using hsome)
    | updateRtHash id rt =>
      rcases r with e | _
      · exact iff_of_true (logoutsHold_of_eq hP hrt) (by rintro i userId rt n ⟨⟩)
      · exact h.storing_iff hP hk hanswer
    | _ =>
      refine iff_of_true (logoutsHold_of_eq hP ?_) (by rintro i userId rt n ⟨⟩)
      exact hrt

/-- **Logouts hold exactly as long as no request that was accepted before a logout stores a hash
after it.** -/
theorem always_logoutsHold_iff_meets (hrun : Run (LogoutStep M) (⟨[], s₀⟩, .none) l s) :
    Always LogoutsHold l s ↔ Meets StoresAfresh l := by
  refine hrun.always_iff_meets' (I := ReadsBefore M s₀) ?_ ?_ (fun _ _ _ h hP hs ↦ h.step hP hs)
    fun _ _ _ h hP hs ↦ logoutsHold_iff h hP hs
  · exact ⟨⟨[], .nil⟩, fun _ _ _ hdid _ ↦ absurd hdid Pool.not_did_nil⟩
  · exact ⟨fun _ hsome ↦ absurd hsome (by simp [Logouts.none]), rfl⟩

/-! ## A refresh around a logout -/

/-- A refresh and a logout, in the world of the registration. -/
def refreshAndLogout : Pool AuthRequest AuthCall.Res Exception Reply World :=
  ((⟨[], registeredWorld⟩ : Pool AuthRequest AuthCall.Res Exception Reply World).accepted
    (AuthRequest.serve plainModule) (.refreshTokens 1 registeredToken)).accepted
    (AuthRequest.serve plainModule) (.logout 1)

/-- The refresh reads the hash, the logout removes it, and the refresh stores one. -/
def resurrected : AuthPool :=
  ([0, 1, 0, 0, 0, 0, 0].foldl (Pool.turn World.respond) refreshAndLogout).mapShared World.db

theorem exists_run_resurrected : ∃ l g, Run (LogoutStep plainModule)
    (⟨[], registeredWorld.db⟩, .none) l (resurrected, g) ∧ g.refreshed = [1] ∧
      g.since 1 = some 2 := by
  have hrun : AuthRun plainModule registeredWorld.db _ (refreshAndLogout.mapShared World.db) :=
    (Run.nil.snoc (.accept _)).snoc (.accept _)
  obtain ⟨l, hobserved, -⟩ := (Pool.run_turns World.answers_respond hrun
    [0, 1, 0, 0, 0, 0, 0]).exists_observed Logouts.record .none
  exact ⟨l, _, hobserved, by decide, by decide⟩

/-- A user is logged out, and is given new tokens, with their hash stored, by a refresh. -/
theorem exists_refreshed : ∃ l s, Run (LogoutStep plainModule)
    (⟨[], registeredWorld.db⟩, .none) l s ∧ s.2.refreshed = [1] ∧ s.2.since 1 = some 2 ∧
      (s.1.shared.rtOf 1).isSome ∧ ¬Always LogoutsHold l s := by
  obtain ⟨l, g, hrun, hrefreshed, hsince⟩ := exists_run_resurrected
  have hstored : (resurrected.shared.rtOf 1).isSome := by decide
  refine ⟨l, _, hrun, hrefreshed, hsince, hstored, fun hall ↦ ?_⟩
  have hdenied : g.refreshed = [] := hall.2.denied
  rw [hrefreshed] at hdenied
  cases hdenied

theorem not_meets_storesAfresh : ∃ l s, Run (LogoutStep plainModule)
    (⟨[], registeredWorld.db⟩, .none) l s ∧ ¬Meets StoresAfresh l := by
  obtain ⟨l, g, hrun, hrefreshed, -⟩ := exists_run_resurrected
  refine ⟨l, _, hrun, fun hmeets ↦ ?_⟩
  have hdenied : g.refreshed = [] := ((always_logoutsHold_iff_meets hrun).mpr hmeets).2.denied
  rw [hrefreshed] at hdenied
  cases hdenied

end JudgeIt
