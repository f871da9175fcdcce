import JudgeIt.Async.Pool
import JudgeIt.Auth.PlainModule
import JudgeIt.Auth.ResetTokens

/-!
# A reset token takes effect once

A reset looks its token up, and much later, after the password has been hashed and written, marks it
used. Requests with one token that overlap all see it unused. The token takes effect at most once in
every run where no request finds it unused while another one stands between its own lookup and the
mark, and where the mark is never rejected.
-/

namespace JudgeIt

open Async AuthDatabase Transition

/-- The runs of resets with one token, each for a new password of its own. -/
abbrev ResetRun (M : AuthModule) (token : JsString) :=
  Pool.Runs (fun newPassword ↦ AuthService.resetPassword M ⟨newPassword, token⟩) Answers

/-- The resets under way. -/
abbrev Resets := Pool JsString AuthCall.Res Exception JsString AuthDatabase

/-- A password is written. -/
def IsWrite (x : Event AuthCall.Res) : Prop :=
  ∃ userId hash, x = ⟨.changePassword userId hash, .ok ()⟩

/-- At most one request has changed the password. -/
def OneWriter (p : Resets) : Prop := ∀ i j, p.Did IsWrite i → p.Did IsWrite j → i = j

/-- The token is looked up and found unused. -/
def FindsUnused (M : AuthModule) (token : JsString) (x : Event AuthCall.Res) : Prop :=
  ∃ row, x = ⟨.getPasswordResetToken (M.sha256 token), .ok (some row)⟩ ∧ row.used = false

/-- Process `i` has found the token unused and has not settled: it is between its lookup and its
mark. -/
def UnderWay (M : AuthModule) (token : JsString) (p : Resets) (i : ℕ) : Prop :=
  ∃ proc, p.processes[i]? = some proc ∧ ¬proc.Settled ∧ ∃ x ∈ proc.trace, FindsUnused M token x

/-- No process finds the token unused while another one is under way, and no mark is rejected. -/
structure InTurn (M : AuthModule) (token : JsString) (p : Resets)
    (a : Pool.Action JsString AuthCall.Res) : Prop where
  alone : ∀ i x, a = .answer i x → FindsUnused M token x → ∀ j, UnderWay M token p j → j = i
  marks : ∀ i id e, a ≠ .answer i ⟨.markTokenUsed id, .error e⟩

variable {M : AuthModule} {token : JsString} {s₀ db db' : AuthDatabase} {p p' : Resets}
  {a : Pool.Action JsString AuthCall.Res} {l : List (Resets × Pool.Action JsString AuthCall.Res)}
  {newPassword : JsString} {tr : List (Event AuthCall.Res)}

/-! ## What a process has done -/

/-- A process that has run to where its program takes it can be carried to an end. -/
theorem Resets.exists_reset
    (hvalid : Pool.Valid (fun newPassword ↦ AuthService.resetPassword M ⟨newPassword, token⟩) p)
    {i : ℕ} {op : AuthCall} {k : op.Res → Authing JsString}
    (hi : p.processes[i]? = some ⟨newPassword, tr, .call op k⟩) (r : op.Res) :
    ∃ rest out, Reset M ⟨newPassword, token⟩ (tr ++ ⟨op, r⟩ :: rest) out := by
  obtain ⟨rest, out, heval⟩ := (Program.After.answered r
    (hvalid _ (List.mem_of_getElem? hi))).exists_eval
  exact ⟨rest, out, by simpa using eval_resetPassword heval⟩

theorem Resets.underWay_of_write
    (hvalid : Pool.Valid (fun newPassword ↦ AuthService.resetPassword M ⟨newPassword, token⟩) p)
    {i : ℕ} {userId : ℤ} {hashed : JsString} {cont : Except Exception Unit → Authing JsString}
    (hi : p.processes[i]? = some ⟨newPassword, tr, .call (.changePassword userId hashed) cont⟩) :
    UnderWay M token p i := by
  obtain ⟨rest, out, hreset⟩ := Resets.exists_reset hvalid hi (.ok ())
  obtain ⟨row, date, salt, rfl, hunused⟩ := hreset.before_write
  refine ⟨_, hi, ?_, _, List.mem_cons_self, row, rfl, hunused⟩
  rintro ⟨out | out, hout⟩ <;> cases hout

theorem Resets.underWay_or_marks
    (hvalid : Pool.Valid (fun newPassword ↦ AuthService.resetPassword M ⟨newPassword, token⟩) p)
    {i : ℕ} (h : p.Did IsWrite i) :
    UnderWay M token p i ∨ p.Did (fun x ↦ ∃ id r, x = ⟨.markTokenUsed id, r⟩) i := by
  obtain ⟨proc, hproc, x, hx, userId, hashed, rfl⟩ := h
  by_cases hsettled : proc.Settled
  · obtain ⟨out, heval⟩ := hvalid.eval (List.mem_of_getElem? hproc) hsettled
    obtain ⟨id, r, hmark⟩ := (eval_resetPassword heval).marks_of_write hx
    exact Or.inr ⟨proc, hproc, _, hmark, id, r, rfl⟩
  · obtain ⟨rest, out, heval⟩ := (hvalid proc (List.mem_of_getElem? hproc)).exists_eval
    obtain ⟨tr₁, tr₂, htr⟩ := List.append_of_mem hx
    have hreset := eval_resetPassword heval
    rw [htr, List.append_assoc, List.cons_append] at hreset
    obtain ⟨row, date, salt, rfl, hunused⟩ := hreset.before_write
    refine Or.inl ⟨proc, hproc, hsettled, _, ?_, row, rfl, hunused⟩
    rw [htr]
    exact List.mem_cons_self

/-! ## The row of the token -/

/-- The row is the one the token had at first, whatever its flag. -/
def FromFirst (M : AuthModule) (token : JsString) (s₀ : AuthDatabase) (row : PasswordResetToken) :
    Prop :=
  ∃ row₀, s₀.getPasswordResetToken (M.sha256 token) = some row₀ ∧ row.id = row₀.id

theorem FromFirst.marked {row : PasswordResetToken} (h : FromFirst M token s₀ row) (id : ℤ) :
    FromFirst M token s₀ (if row.id = id then row.markUsed else row) := by
  obtain ⟨row₀, hrow₀, hid⟩ := h
  refine ⟨row₀, hrow₀, ?_⟩
  split <;> exact hid

/-- What the processes and the tables agree on. -/
structure Consistent (M : AuthModule) (token : JsString) (s₀ : AuthDatabase) (p : Resets) :
    Prop where
  valid : Pool.Valid (fun newPassword ↦ AuthService.resetPassword M ⟨newPassword, token⟩) p
  row : ∀ row, p.shared.getPasswordResetToken (M.sha256 token) = some row →
    FromFirst M token s₀ row
  /-- A row that has been read. -/
  read : ∀ i row, p.Did (· = ⟨.getPasswordResetToken (M.sha256 token), .ok (some row)⟩) i →
    FromFirst M token s₀ row
  marked : ∀ i, p.Did IsMark i → ∀ row,
    p.shared.getPasswordResetToken (M.sha256 token) = some row → row.used = true

theorem Consistent.step (h : Consistent M token s₀ p)
    (hs : Pool.Step (fun newPassword ↦ AuthService.resetPassword M ⟨newPassword, token⟩) Answers
      p a p') : Consistent M token s₀ p' := by
  have hvalid := h.valid.step hs
  cases hs with
  | accept newPassword =>
    refine ⟨hvalid, h.row, ?_, ?_⟩ <;> simp only [Pool.did_accepted]
    exacts [h.read, h.marked]
  | @answer k newPassword tr op cont r shared hk hanswer =>
    obtain ⟨rest, out, hreset⟩ := Resets.exists_reset h.valid hk r
    have hcreate := hreset.not_create (e := ⟨op, r⟩) (by simp)
    -- whatever is read now is the row the tables have
    have hread : ∀ i row, (p.answered k ⟨op, r⟩ (cont r) shared).Did
        (· = ⟨.getPasswordResetToken (M.sha256 token), .ok (some row)⟩) i →
        FromFirst M token s₀ row := by
      intro i row hdid
      rcases (Pool.did_answered hk).mp hdid with hdid | ⟨-, hevent⟩
      · exact h.read i row hdid
      · cases hevent
        exact h.row row hanswer.2.symm
    rcases lookup_answered hanswer hcreate with ⟨id, hevent, hlookup⟩ | ⟨hnot, hsame⟩
    · cases hevent
      obtain ⟨row₁, date, salt, userId, hashed, rfl, hid⟩ := hreset.before_mark
      obtain ⟨row₀, hrow₀, hid₁⟩ := h.read k row₁ ⟨_, hk, _, List.mem_cons_self, rfl⟩
      refine ⟨hvalid, fun row hrow ↦ ?_, hread, fun i _ row hrow ↦ ?_⟩
      · rw [Pool.shared_answered, hlookup] at hrow
        obtain ⟨row', hrow', rfl⟩ := Option.map_eq_some_iff.mp hrow
        exact (h.row row' hrow').marked id
      · -- the row that is marked is the row of the token
        rw [Pool.shared_answered, hlookup] at hrow
        obtain ⟨row', hrow', rfl⟩ := Option.map_eq_some_iff.mp hrow
        obtain ⟨row₀', hrow₀', hid'⟩ := h.row row' hrow'
        rw [hrow₀, Option.some.injEq] at hrow₀'
        rw [if_pos (by rw [hid', ← hrow₀', ← hid₁, hid])]
        rfl
    · have hrows : shared.getPasswordResetToken (M.sha256 token) =
          p.shared.getPasswordResetToken (M.sha256 token) := by
        rw [getPasswordResetToken, hsame, getPasswordResetToken]
      have hdid (i : ℕ) : (p.answered k ⟨op, r⟩ (cont r) shared).Did IsMark i ↔ p.Did IsMark i := by
        rw [Pool.did_answered hk, or_iff_left fun hi ↦ hnot hi.2]
      refine ⟨hvalid, ?_, hread, ?_⟩ <;> simp only [hdid, Pool.shared_answered, hrows]
      exacts [h.row, h.marked]

/-! ## One after the other -/

/-- In turn, at most one process is under way, nobody has written but that one or one that has
marked the token, and nobody is under way beside a writer. -/
structure Orderly (M : AuthModule) (token : JsString) (s₀ : AuthDatabase) (p : Resets) :
    Prop where
  consistent : Consistent M token s₀ p
  marks : ∀ i, ¬p.Did (fun x ↦ ∃ id e, x = ⟨.markTokenUsed id, .error e⟩) i
  alone : ∀ i j, UnderWay M token p i → UnderWay M token p j → i = j
  writer : ∀ i j, UnderWay M token p i → p.Did IsWrite j → i = j
  oneWriter : OneWriter p

theorem underWay_accepted {i : ℕ} {program : JsString → Authing JsString}
    (h : UnderWay M token (p.accepted program newPassword) i) : UnderWay M token p i := by
  obtain ⟨proc, hproc, hsettled, x, hx, hfinds⟩ := h
  rcases Pool.getElem?_accepted.mp hproc with hproc | ⟨-, rfl⟩
  · exact ⟨proc, hproc, hsettled, x, hx, hfinds⟩
  · cases hx

/-- A process gets under way with its lookup. -/
theorem underWay_answered {i k : ℕ} {op : AuthCall} {r : op.Res} {rest : Authing JsString}
    {cont : op.Res → Authing JsString}
    (hk : p.processes[k]? = some ⟨newPassword, tr, .call op cont⟩)
    (h : UnderWay M token (p.answered k ⟨op, r⟩ rest db) i) :
    UnderWay M token p i ∨ i = k ∧ FindsUnused M token ⟨op, r⟩ := by
  obtain ⟨proc, hproc, hsettled, x, hx, hfinds⟩ := h
  rw [Pool.getElem?_answered] at hproc
  split at hproc
  · next hi =>
    subst hi
    rw [hk, Option.map_some, Option.some.injEq] at hproc
    subst hproc
    rcases List.mem_append.mp hx with hx | hx
    · refine Or.inl ⟨_, hk, ?_, x, hx, hfinds⟩
      rintro ⟨out | out, hout⟩ <;> cases hout
    · exact Or.inr ⟨rfl, List.mem_singleton.mp hx ▸ hfinds⟩
  · exact Or.inl ⟨proc, hproc, hsettled, x, hx, hfinds⟩

/-- Who has written is under way, or the token is marked. -/
theorem Orderly.underWay_or_marked (h : Orderly M token s₀ p) {i : ℕ} (hi : p.Did IsWrite i) :
    UnderWay M token p i ∨ p.Did IsMark i := by
  refine (Resets.underWay_or_marks h.consistent.valid hi).imp_right ?_
  rintro ⟨proc, hproc, x, hx, id, r, rfl⟩
  rcases r with e | _
  · exact absurd ⟨proc, hproc, _, hx, id, e, rfl⟩ (h.marks i)
  · exact ⟨proc, hproc, _, hx, id, rfl⟩

/-- In turn, nobody has written when the token is found unused. -/
theorem Orderly.eq_of_findsUnused (h : Orderly M token s₀ p) {k : ℕ} {op : AuthCall} {r : op.Res}
    (ha : InTurn M token p (.answer k ⟨op, r⟩)) (hanswer : Answers p.shared op r db)
    (hfinds : FindsUnused M token ⟨op, r⟩) {j : ℕ} (hj : p.Did IsWrite j) : j = k := by
  rcases h.underWay_or_marked hj with hj | hj
  · exact ha.alone k _ rfl hfinds j hj
  · obtain ⟨row, hevent, hunused⟩ := hfinds
    cases hevent
    have hused := h.consistent.marked j hj row hanswer.2.symm
    rw [hunused] at hused
    cases hused

theorem Orderly.accepted (h : Orderly M token s₀ p) {program : JsString → Authing JsString}
    (hconsistent : Consistent M token s₀ (p.accepted program newPassword)) :
    Orderly M token s₀ (p.accepted program newPassword) := by
  refine ⟨hconsistent, ?_, fun i j hi hj ↦ ?_, fun i j hi ↦ ?_, ?_⟩
  · simpa only [Pool.did_accepted] using h.marks
  · exact h.alone i j (underWay_accepted hi) (underWay_accepted hj)
  · rw [Pool.did_accepted]
    exact h.writer i j (underWay_accepted hi)
  · simpa only [OneWriter, Pool.did_accepted] using h.oneWriter

theorem Orderly.step (h : Orderly M token s₀ p) (ha : InTurn M token p a)
    (hs : Pool.Step (fun newPassword ↦ AuthService.resetPassword M ⟨newPassword, token⟩) Answers
      p a p') : Orderly M token s₀ p' := by
  have hconsistent := h.consistent.step hs
  cases hs with
  | accept newPassword => exact h.accepted hconsistent
  | @answer k newPassword tr op cont r shared hk hanswer =>
    have halone (hfinds : FindsUnused M token ⟨op, r⟩) (j : ℕ) (hj : UnderWay M token p j) :
        j = k := ha.alone k _ rfl hfinds j hj
    -- who writes is under way, and has been alone since its lookup
    have hwriting (hwrite : IsWrite ⟨op, r⟩) : UnderWay M token p k := by
      obtain ⟨userId, hashed, hevent⟩ := hwrite
      cases hevent
      exact Resets.underWay_of_write h.consistent.valid hk
    refine ⟨hconsistent, fun i hi ↦ ?_, fun i j hi hj ↦ ?_, fun i j hi hj ↦ ?_,
      fun i j hi hj ↦ ?_⟩
    · rcases (Pool.did_answered hk).mp hi with hi' | ⟨rfl, id, e, hevent⟩
      · exact h.marks i hi'
      · exact ha.marks i id e (by rw [hevent])
    · rcases underWay_answered hk hi with hi' | ⟨rfl, hfinds⟩ <;>
        rcases underWay_answered hk hj with hj' | ⟨rfl, hfinds⟩
      · exact h.alone i j hi' hj'
      · exact halone hfinds i hi'
      · exact (halone hfinds j hj').symm
      · rfl
    · rcases underWay_answered hk hi with hi' | ⟨rfl, hfinds⟩ <;>
        rcases (Pool.did_answered hk).mp hj with hj' | ⟨rfl, hwrite⟩
      · exact h.writer i j hi' hj'
      · exact h.alone i j hi' (hwriting hwrite)
      · exact (h.eq_of_findsUnused ha hanswer hfinds hj').symm
      · rfl
    · rcases (Pool.did_answered hk).mp hi with hi' | ⟨rfl, hwrite⟩ <;>
        rcases (Pool.did_answered hk).mp hj with hj' | ⟨rfl, hwrite⟩
      · exact h.oneWriter i j hi' hj'
      · exact (h.writer j i (hwriting hwrite) hi').symm
      · exact h.writer i j (hwriting hwrite) hj'
      · rfl

/-- **A reset token takes effect at most once** in every run where no request finds it unused while
another one is between its lookup and its mark, and no mark is rejected. -/
theorem always_oneWriter (hrun : ResetRun M token s₀ l p) (hl : Meets (InTurn M token) l) :
    Always OneWriter l p := by
  refine hrun.always hl fun l p hrun hl ↦ ?_
  have hnot {P : Event AuthCall.Res → Prop} (i : ℕ) : ¬(⟨[], s₀⟩ : Resets).Did P i :=
    Pool.not_did_nil
  have hunder : ∀ i, ¬UnderWay M token ⟨[], s₀⟩ i := by
    rintro i ⟨proc, hproc, -⟩
    cases hproc
  have horderly : Orderly M token s₀ p := by
    refine hrun.invariant ⟨⟨by simp [Pool.Valid], fun row hrow ↦ ⟨row, hrow, rfl⟩, ?_, ?_⟩, ?_, ?_,
      ?_, ?_⟩ (fun _ _ _ h ha hs ↦ h.step ha hs) hl
    · exact fun i _ hi ↦ absurd hi (hnot i)
    · exact fun i hi ↦ absurd hi (hnot i)
    · exact hnot
    · exact fun i _ hi ↦ absurd hi (hunder i)
    · exact fun i _ hi ↦ absurd hi (hunder i)
    · exact fun i _ hi ↦ absurd hi (hnot i)
  exact horderly.oneWriter

/-! ## Two requests -/

/-- Two resets with that token, for passwords of eight letters. -/
def twoResets : Pool JsString AuthCall.Res Exception JsString World :=
  let program newPassword := AuthService.resetPassword plainModule ⟨newPassword, [5]⟩
  ((⟨[], mailedWorld⟩ : Pool JsString AuthCall.Res Exception JsString World).accepted program
    (.replicate 8 1)).accepted program (.replicate 8 2)

theorem exists_run_twoResets (schedule : List ℕ) :
    ∃ l, ResetRun plainModule [5] mailedWorld.db l
      ((schedule.foldl (Pool.turn World.respond) twoResets).mapShared World.db) ∧
      ∃ p, l = [(⟨[], mailedWorld.db⟩, .accept (.replicate 8 1)), (p, .accept (.replicate 8 2))] ++
        Pool.turns World.respond World.db twoResets schedule := by
  have hrun : ResetRun plainModule [5] mailedWorld.db _ (twoResets.mapShared World.db) :=
    (Run.nil.snoc (.accept _)).snoc (.accept _)
  exact ⟨_, Pool.run_turns World.answers_respond hrun schedule, _, rfl⟩

/-- Each looks the token up before the other has marked it, and both write. -/
def overlapping : Resets :=
  (List.foldl (Pool.turn World.respond) twoResets [0, 1, 0, 1, 0, 1, 0, 1]).mapShared World.db

theorem not_oneWriter_overlapping : ¬OneWriter overlapping := by
  -- the write is the fourth call of each
  have hwrites (i : ℕ) (hi : i < 2) : overlapping.Did IsWrite i := by
    interval_cases i <;> exact ⟨_, rfl, _, .tail _ (.tail _ (.tail _ (.head _))), _, _, rfl⟩
  intro hone
  cases hone 0 1 (hwrites 0 (by decide)) (hwrites 1 (by decide))

/-- Two requests change the password with one token. -/
theorem exists_two_writers :
    ∃ l, ResetRun plainModule [5] mailedWorld.db l overlapping ∧
      ¬Always OneWriter l overlapping := by
  obtain ⟨l, hrun, -⟩ := exists_run_twoResets [0, 1, 0, 1, 0, 1, 0, 1]
  exact ⟨l, hrun, fun hall ↦ not_oneWriter_overlapping hall.2⟩

/-! ## One after the other -/

theorem inTurn_accept : InTurn M token p (.accept newPassword) :=
  ⟨fun _ _ h ↦ (by cases h), fun _ _ _ h ↦ (by cases h)⟩

/-- The condition is only about looking up and marking. -/
theorem inTurn_answer {i : ℕ} {op : AuthCall} {r : op.Res}
    (hlookup : ∀ hashed, op ≠ .getPasswordResetToken hashed)
    (hmark : ∀ id, op ≠ .markTokenUsed id) : InTurn M token p (.answer i ⟨op, r⟩) := by
  refine ⟨fun i x h hfinds ↦ ?_, fun i id e h ↦ ?_⟩
  · cases h
    obtain ⟨row, hevent, -⟩ := hfinds
    cases hevent
    exact absurd rfl (hlookup _)
  · cases h
    exact absurd rfl (hmark _)

theorem inTurn_lookup {i : ℕ} {r : Except Exception (Option PasswordResetToken)}
    (h : ∀ row, r = .ok (some row) → row.used = false → ∀ j, UnderWay M token p j → j = i) :
    InTurn M token p (.answer i ⟨.getPasswordResetToken (M.sha256 token), r⟩) := by
  refine ⟨fun i x heq hfinds ↦ ?_, fun i id e heq ↦ ?_⟩
  · cases heq
    obtain ⟨row, hevent, hunused⟩ := hfinds
    cases hevent
    exact h row rfl hunused
  · cases heq

theorem inTurn_mark {i : ℕ} {id : ℤ} :
    InTurn M token p (.answer i ⟨.markTokenUsed id, .ok ()⟩) := by
  refine ⟨fun i x heq hfinds ↦ ?_, fun i id e heq ↦ ?_⟩
  · cases heq
    obtain ⟨row, hevent, -⟩ := hfinds
    cases hevent
  · cases heq

/-- The second reset looks the token up when the first one has ended. -/
def consecutive : Resets :=
  (List.foldl (Pool.turn World.respond) twoResets [0, 0, 0, 0, 0, 1]).mapShared World.db

theorem exists_run_consecutive : ∃ l, ResetRun plainModule [5] mailedWorld.db l consecutive ∧
    Meets (InTurn plainModule [5]) l := by
  obtain ⟨l, hrun, p, rfl⟩ := exists_run_twoResets [0, 0, 0, 0, 0, 1]
  refine ⟨_, hrun, meets_append.mpr ⟨?_, ?_⟩⟩
  · exact List.forall_mem_cons.mpr ⟨inTurn_accept, List.forall_mem_singleton.mpr inTurn_accept⟩
  -- nobody is under way at the first lookup
  refine Pool.meets_turns_cons rfl (inTurn_lookup fun _ _ _ j hj ↦ ?_) ?_
  · obtain ⟨proc, hproc, -, x, hx, -⟩ := hj
    have htrace : proc.trace = [] := by
      rcases List.mem_cons.mp (List.mem_of_getElem? hproc) with rfl | hproc
      · rfl
      · rw [List.mem_singleton.mp hproc]
    rw [htrace] at hx
    cases hx
  refine Pool.meets_turns_cons rfl (inTurn_answer (by simp) (by simp)) ?_
  refine Pool.meets_turns_cons rfl (inTurn_answer (by simp) (by simp)) ?_
  refine Pool.meets_turns_cons rfl (inTurn_answer (by simp) (by simp)) ?_
  refine Pool.meets_turns_cons rfl inTurn_mark ?_
  -- at the second one the token is marked
  refine Pool.meets_turns_cons rfl (inTurn_lookup fun row hrow hunused ↦ ?_)
    (by simp [Meets, Pool.turns])
  cases hrow
  cases hunused

/-- With the second reset behind the first one, the first alone changes the password. -/
theorem always_oneWriter_consecutive : ∃ l, ResetRun plainModule [5] mailedWorld.db l consecutive ∧
    Meets (InTurn plainModule [5]) l ∧ consecutive.Did IsWrite 0 ∧
    Always OneWriter l consecutive := by
  obtain ⟨l, hrun, hmeets⟩ := exists_run_consecutive
  have hwrite : consecutive.Did IsWrite 0 :=
    ⟨_, rfl, _, .tail _ (.tail _ (.tail _ (.head _))), _, _, rfl⟩
  exact ⟨l, hrun, hmeets, hwrite, always_oneWriter hrun hmeets⟩

end JudgeIt
