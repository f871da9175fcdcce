import JudgeIt.Submissions.Platform
import JudgeIt.Submissions.Redelivery
import JudgeIt.Worker.Commits
import JudgeIt.Worker.Deployment

/-!
# What a committed position promises

A position is committed once the messages below it are completed, and a message is completed in the
`finally` block, however its judge settled. So a committed position promises that the judges below
it have settled, and it promises verdicts only as far as they have resolved. A judge rejects when a
call rejects that nothing in it catches, and while no judge gets such a response, every submission
below a committed position has its verdict.
-/

namespace JudgeIt

open Async Transition

/-! ## Verdicts in the database -/

/-- The row exists and is not pending. -/
def Database.HasVerdict (db : Database) (id : ℤ) : Prop :=
  ∃ row, db.submission? id = some row ∧ row.verdicate ≠ JsString.ofString "PENDING"

/-- What the rest of the application does to the database between two steps of a worker: calls that
store no verdict but a final one. Requests create rows, and other workers judge. -/
def Database.Elsewhere (db db' : Database) : Prop :=
  ∃ op r, op.StoresFinal ∧ Database.Answers db op r db'

theorem ne_pending_of_mem {v : JsString} (h : v ∈ finalVerdicts) :
    v ≠ JsString.ofString "PENDING" := by
  rintro rfl
  exact absurd h (by decide)

namespace Database

variable {db db' : Database} {op : Call} {r : op.Res} {id : ℤ}

theorem hasVerdict_of_updateSubmission {v : JsString} {t m : ℚ} (hv : v ∈ finalVerdicts)
    (h : db.updateSubmission (some id) v t m = some db') : db'.HasVerdict id := by
  obtain ⟨_, memory, hid, -, hrow, rfl⟩ := updateSubmission_eq_some_iff.mp h
  cases hid
  obtain ⟨row, hrow⟩ := Option.isSome_iff_exists.mp hrow
  refine ⟨row.judged v t memory, ?_, ne_pending_of_mem hv⟩
  rw [submission?_modifySubmission, if_pos rfl, hrow]
  rfl

/-- A verdict stays. -/
theorem Answers.hasVerdict (h : Answers db op r db') (hop : op.StoresFinal)
    (hid : db.HasVerdict id) : db'.HasVerdict id := by
  rcases h.cases with ⟨rfl, -⟩ | ⟨data, row, -, hcreate⟩ | ⟨id', v, t, m, hx, hupdate⟩ |
    ⟨data, -, hinsert⟩
  · exact hid
  · obtain ⟨old, hold, hv⟩ := hid
    obtain ⟨-, -, -, -, -, -, hsub, -⟩ := of_createSubmission hcreate
    refine ⟨old, ?_, hv⟩
    rw [submission?] at hold ⊢
    rw [hsub, List.find?_append, hold]
    rfl
  · cases hx
    obtain ⟨id', memory, rfl, hm, hrow, rfl⟩ := updateSubmission_eq_some_iff.mp hupdate
    by_cases hne : id = id'
    · subst hne
      exact hasVerdict_of_updateSubmission hop hupdate
    · obtain ⟨old, hold, hv⟩ := hid
      exact ⟨old, by rw [submission?_modifySubmission, if_neg hne, hold], hv⟩
  · rw [HasVerdict, submission?_of_createMany hinsert]
    exact hid

end Database

/-! ## When the judge resolves -/

/-- A response that nothing in `judgeSubmission` catches: the tests or the problem could not be
loaded, a write was rejected, or the metric was. -/
def Uncaught : Event Call.Res → Prop
  | ⟨.getTestCases _, .error _⟩ | ⟨.findProblem _, .error _⟩ | ⟨.findProblem _, .ok none⟩
  | ⟨.updateSubmission .., .error _⟩ | ⟨.createMany _, .error _⟩ | ⟨.observe _, .error _⟩ => True
  | _ => False

theorem resolved_of_caught {e : SubmissionQueuedEvent} {boxId : ℕ} {tr : List (Event Call.Res)}
    {out : Except JsString (List JsString)} (h : (judgeSubmission (some e) boxId).Eval tr out)
    (hcaught : ∀ x ∈ tr, ¬Uncaught x) : (∃ v, out = .ok v) ∧
      ∃ v t m, ⟨.updateSubmission e.submissionId v t m, .ok ()⟩ ∈ tr := by
  rcases eval_judgeSubmission h with ⟨r, r', err, rfl, hr, -⟩ |
    ⟨run, writes, testCases, problem, results, verdicates, rows, rfl, -, hwritten⟩
  · have hcr := hcaught _ List.mem_cons_self
    have hcr' := hcaught _ (List.mem_cons_of_mem _ List.mem_cons_self)
    rcases hr with ⟨err, rfl⟩ | rfl | ⟨err, rfl⟩
    · exact absurd trivial hcr
    · exact absurd trivial hcr'
    · exact absurd trivial hcr'
  · have hwrites : ∀ x ∈ writes, ¬Uncaught x := fun x hx ↦ hcaught x (List.mem_append_right _ hx)
    cases hwritten with
    | updateFailed err => exact absurd trivial (hwrites _ List.mem_cons_self)
    | insertFailed err =>
      exact absurd trivial (hwrites _ (List.mem_cons_of_mem _ List.mem_cons_self))
    | both startTime finishTime seconds r =>
      cases r with
      | error err => exact absurd trivial (hwrites _ (List.mem_of_getElem? (i := 4) rfl))
      | ok _ => exact ⟨⟨verdicates, rfl⟩, _, _, _, List.mem_append_right _ List.mem_cons_self⟩

namespace ManagerState

variable {workers : ℕ} {assigned : List ℕ} {s s' : WorkerState Database} {i : ℕ}
  {E : Env Database Call.Res} {other : Database → Database → Prop} {group : GroupOffsets}
  {world : Database} {l : List (WorkerState Database × WorkerAction Database)}
  {a : WorkerAction Database} {x : Event Call.Res}

/-! ## Stored verdicts, over a run -/

/-- The submission of every update on record has a verdict. -/
def Stored (s : WorkerState Database) : Prop :=
  ∀ i id v t m, .called i ⟨.updateSubmission (some id) v t m, .ok ()⟩ ∈ s.history →
    s.world.HasVerdict id

theorem byJudge_of_pending (hf : Followed (judgeDeployment workers assigned) s)
    {m : Message JsString (Option SubmissionQueuedEvent)} {b : ℕ} {op : Call}
    {k : op.Res → Judging (List JsString)} (r : op.Res)
    (hi : s.handlers[i]? = some ⟨m, .judging b (.call op k)⟩) : op.ByJudge := by
  have hfi := hf i
  rw [hi] at hfi
  obtain ⟨-, payload, -, hafter⟩ := hfi
  obtain ⟨tr, out, heval⟩ := (hafter.answered r).exists_eval
  exact byJudge_of_mem heval ⟨op, r⟩ (by simp)

theorem Stored.step (h : Stored s) (hf : Followed (judgeDeployment workers assigned) s)
    (hs : Step (judgeDeployment workers assigned) Database.Answers Database.Elsewhere s a s') :
    Stored s' := by
  intro i id v t m hmem
  obtain ⟨es, hes, ⟨hnone, hworld⟩ | ⟨j, m', b, op, k, r, -, rfl, hj, hE⟩⟩ := record_step hs
  · rw [hes] at hmem
    rcases List.mem_append.mp hmem with hmem | hmem
    · have hid := h i id v t m hmem
      rcases hworld with hworld | ⟨op, r, hop, hanswers⟩
      · rwa [hworld]
      · exact hanswers.hasVerdict hop hid
    · exact absurd hmem (hnone _ _)
  · have hop := (byJudge_of_pending hf r hj).storesFinal
    rw [hes] at hmem
    rcases List.mem_append.mp hmem with hmem | hmem
    · exact hE.hasVerdict hop (h i id v t m hmem)
    · cases List.mem_singleton.mp hmem
      exact Database.hasVerdict_of_updateSubmission hop hE

theorem Stored.run (hrun : ManagerRun (judgeDeployment workers assigned) Database.Answers
    Database.Elsewhere group world l s) : Stored s := by
  induction hrun with
  | nil => exact fun i id v t m hmem ↦ absurd hmem List.not_mem_nil
  | snoc hr hs ih => exact ih.step (Followed.run hr) hs

/-! ## Judges that resolve, over a run -/

/-- The message of handler `i` is a well-formed event. -/
def Carries (s : WorkerState Database) (i : ℕ) (e : SubmissionQueuedEvent) : Prop :=
  ∃ m, s.message? i = some m ∧ m.value = some (.ok (some e)) ∧ e.WellFormed

/-- The action answers no judge of a well-formed event with a response that is not caught. -/
def AnswersCaught (s : WorkerState Database) : WorkerAction Database → Prop
  | .respond i x => (∃ e, s.Carries i e) → ¬Uncaught x
  | _ => True

/-- No judge of a well-formed event has had such a response. -/
def Caught (s : WorkerState Database) : Prop :=
  ∀ i, (∃ e, s.Carries i e) → ∀ x, .called i x ∈ s.history → ¬Uncaught x

theorem Caught.step (h : Caught s) (hf : Followed (judgeDeployment workers assigned) s)
    (ha : AnswersCaught s a) (hs : Step (judgeDeployment workers assigned) E other s a s') :
    Caught s' := by
  rintro i ⟨e, m, hm, hcarries⟩ x hx
  have hold : .called i x ∈ s.history → ¬Uncaught x := by
    intro hx
    obtain ⟨handler, hi⟩ := exists_handler_of_called hf hx
    have hm' : s.message? i = some handler.message := message?_eq hi
    rw [message?_of_step hs hm'] at hm
    cases hm
    exact h i ⟨e, _, hm', hcarries⟩ x hx
  obtain ⟨es, hes, ⟨hnone, -⟩ | ⟨j, m', b, op, k, r, rfl, rfl, hj, -⟩⟩ := record_step hs
  · rw [hes] at hx
    exact (List.mem_append.mp hx).elim hold fun hx ↦ absurd hx (hnone _ _)
  · rw [hes] at hx
    rcases List.mem_append.mp hx with hx | hx
    · exact hold hx
    · cases List.mem_singleton.mp hx
      rw [message?_of_step hs (message?_eq hj)] at hm
      cases hm
      exact ha ⟨e, _, message?_eq hj, hcarries⟩

theorem Caught.run (hrun : ManagerRun (judgeDeployment workers assigned) E other group world l s)
    (hl : Meets AnswersCaught l) : Caught s := by
  induction hrun with
  | nil => exact fun i _ x hx ↦ absurd hx List.not_mem_nil
  | snoc hr hs ih =>
    obtain ⟨hl, ha⟩ := meets_snoc.mp hl
    exact (ih hl).step (Followed.run hr) ha hs

/-! ## Below a committed position -/

/-- Below a committed position every well-formed event has been judged, and has its verdict. -/
def JudgedBelow (s : WorkerState Database) : Prop :=
  ∀ p c i h e, s.consumer.committed p = some c → s.handlers[i]? = some h →
    h.message.partition = p → h.message.offset < c → h.message.value = some (.ok (some e)) →
    e.WellFormed → (∃ v, .judged i (.ok v) ∈ s.history) ∧
      ∃ id, e.submissionId = some id ∧ s.world.HasVerdict id

theorem exists_eval_of_completed (hledger : Ledger s)
    (hf : Followed (judgeDeployment workers assigned) s)
    {h : Handler Call.Res JsString (Option SubmissionQueuedEvent) (List JsString)}
    {e : SubmissionQueuedEvent} (hi : s.handlers[i]? = some h)
    (hv : h.message.value = some (.ok (some e))) (hc : .completed i ∈ s.history) :
    ∃ b out, .judged i out ∈ s.history ∧ (judgeSubmission (some e) b).Eval (s.calls i) out := by
  have hacc := hledger i
  have hfi := hf i
  rw [phase?, hi] at hacc
  rw [hi] at hfi
  have hzero : s.completions i ≠ 0 := fun hz ↦ completions_eq_zero_iff.mp hz hc
  obtain ⟨m, phase⟩ := h
  have hpast : (s.calls i = [] ∧ s.outcomes i = [] ∧ ∃ e, m.value = some (.error e)) ∨
      ∃ b payload out, s.grants i = [b] ∧ s.outcomes i = [out] ∧ m.value = some (.ok payload) ∧
        (judgeSubmission payload b).Eval (s.calls i) out := by
    cases phase with
    | waiting => exact absurd hacc.2.2 hzero
    | granted b => exact absurd hacc.2.2 hzero
    | judging b y => exact absurd hacc.2.2 hzero
    | skipped b => exact absurd hacc.2.2 hzero
    | committing => exact hfi
    | settled => exact hfi
  rcases hpast with ⟨-, -, err, herr⟩ | ⟨b, payload, out, -, hout, hpayload, heval⟩
  · rw [hv] at herr
    cases herr
  · rw [hv] at hpayload
    cases hpayload
    exact ⟨b, out, mem_outcomes_iff.mp (by simp [hout]), heval⟩

/-- **No submission is passed over**, in every state of every in-order run in which no judge of a
well-formed event gets a response it does not catch. -/
theorem always_judgedBelow (hrun : ManagerRun (judgeDeployment workers assigned) Database.Answers
      Database.Elsewhere group world l s)
    (hl : Meets (fun s a ↦ InOrder s a ∧ AnswersCaught s a) l) : Always JudgedBelow l s := by
  refine hrun.always hl fun l s hrun hl p c i h e hc hi hp hoffset hv he ↦ ?_
  have horder : Meets InOrder l := fun x hx ↦ (hl x hx).1
  have hcaught : Meets AnswersCaught l := fun x hx ↦ (hl x hx).2
  have hcompleted : .completed i ∈ s.history := by
    by_contra hnot
    exact absurd ((committed_le_uncompleted hrun horder hc).1 i h hi hp hnot) (not_le.mpr hoffset)
  obtain ⟨b, out, hjudged, heval⟩ :=
    exists_eval_of_completed (Ledger.run hrun) (Followed.run hrun) hi hv hcompleted
  have hmessage : s.message? i = some h.message := message?_eq hi
  obtain ⟨⟨v, rfl⟩, verdict, t, m, hstored⟩ := resolved_of_caught heval fun x hx ↦
    Caught.run hrun hcaught i ⟨e, _, hmessage, hv, he⟩ x (mem_callsIn_iff.mp hx)
  obtain ⟨id, hid⟩ := Option.isSome_iff_exists.mp he.submissionId
  rw [hid] at hstored
  exact ⟨⟨v, hjudged⟩, id, hid,
    Stored.run hrun i id verdict t m (mem_callsIn_iff.mp hstored)⟩

/-! ## A submission that is judged, and one that is passed over -/

/-- The event of the pending submission, as the first message of a partition. -/
def pendingMessage : Message JsString (Option SubmissionQueuedEvent) :=
  ⟨0, 0, some (.ok (some uncompilable))⟩

theorem wellFormed_uncompilable : uncompilable.WellFormed := ⟨rfl, rfl, rfl, rfl, rfl, rfl⟩

/-- Delivering the message, judging it with the given answers, and committing its offset. -/
theorem exists_run_pending {tr : List (Event Call.Res)} {out : Except JsString (List JsString)}
    {db : Database} (htr : (judgeSubmission (some uncompilable) 0).Eval tr out)
    (hdb : Database.Answers.Steps pendingDatabase tr db) : ∃ l s,
    ManagerRun (judgeDeployment 1 [0]) Database.Answers Database.Elsewhere .fromStart
      pendingDatabase l s ∧
    Meets InOrder l ∧ ((∀ x ∈ tr, ¬Uncaught x) → Meets AnswersCaught l) ∧
    s.consumer.committed 0 = some 1 ∧ s.world = db ∧
    ∃ h, s.handlers[0]? = some h ∧ h.message = pendingMessage := by
  have h₀ : ManagerRun (judgeDeployment 1 [0]) Database.Answers Database.Elsewhere .fromStart
    pendingDatabase [] _ := .nil
  have h₁ := h₀.snoc (.deliver (m := pendingMessage) (by decide))
  have h₂ := h₁.snoc (.start (i := 0) rfl)
  obtain ⟨l₃, h₃, hall⟩ := exists_run_answered (i := 0) htr h₂ rfl hdb
  have h₄ := h₃.snoc (.finish (i := 0) rfl)
  have h₅ := h₄.snoc (.arrive (n := 0) rfl)
  refine ⟨_, _, h₅, ?_, fun hcaught ↦ ?_, rfl, rfl, _, rfl, rfl⟩ <;>
    simp only [meets_append, meets_singleton]
  · refine ⟨⟨⟨⟨⟨by simp [Meets], le_refl (0 : ℤ)⟩, trivial⟩, fun y hy ↦ ?_⟩, trivial⟩, trivial⟩
    obtain ⟨z, -, hz⟩ := hall y hy
    rw [hz]
    trivial
  · refine ⟨⟨⟨⟨⟨by simp [Meets], trivial⟩, trivial⟩, fun y hy ↦ ?_⟩, trivial⟩, trivial⟩
    obtain ⟨z, hz, hy⟩ := hall y hy
    rw [hy]
    exact fun _ ↦ hcaught z hz

/-- With a box that cannot be initialised but no rejected call that the judge does not catch, the
submission has its verdict. -/
theorem always_judgedBelow_recorded : ∃ l s,
    ManagerRun (judgeDeployment 1 [0]) Database.Answers Database.Elsewhere .fromStart
      pendingDatabase l s ∧
    s.consumer.committed 0 = some 1 ∧ Always JudgedBelow l s := by
  have hcaught : ∀ x ∈ recordedTrace, ¬Uncaught x := by
    simp [recordedTrace, Uncaught]
  obtain ⟨l, s, hrun, horder, hl, hc, -⟩ := exists_run_pending eval_recordedTrace
    steps_recordedTrace.1
  exact ⟨l, s, hrun, hc, always_judgedBelow hrun fun x hx ↦ ⟨horder x hx, hl hcaught x hx⟩⟩

/-- The tests cannot be loaded, so the judge rejects; the offset is committed all the same, and the
submission stays pending. -/
theorem pending_passed_over : ∃ tr l s,
    (judgeSubmission (some uncompilable) 0).Eval tr (.error "Error: Failed to get test cases") ∧
    ManagerRun (judgeDeployment 1 [0]) Database.Answers Database.Elsewhere .fromStart
      pendingDatabase l s ∧
    Meets InOrder l ∧ s.consumer.committed 0 = some 1 ∧
    (∃ h, s.handlers[0]? = some h ∧ h.message = pendingMessage) ∧
    ¬s.world.HasVerdict 1 ∧ ¬JudgedBelow s := by
  have heval : (judgeSubmission (some uncompilable) 0).Eval
      [⟨.getTestCases (some 7), .error "Error: Failed to get test cases"⟩,
        ⟨.findProblem (some 7), .ok (some sumProblem)⟩]
      (.error "Error: Failed to get test cases") := ⟨_, _, rfl, _, _, rfl, rfl, rfl⟩
  obtain ⟨l, s, hrun, horder, -, hc, hw, h, hi, hm⟩ := exists_run_pending heval
    ⟨pendingDatabase, rfl, pendingDatabase, ⟨rfl, rfl⟩, rfl⟩
  have hpending : ¬s.world.HasVerdict 1 := by
    rintro ⟨row, hrow, hv⟩
    rw [hw] at hrow
    cases hrow
    exact hv rfl
  refine ⟨_, l, s, heval, hrun, horder, hc, ⟨h, hi, hm⟩, hpending, fun hjudged ↦ ?_⟩
  obtain ⟨-, id, hid, hverdict⟩ := hjudged 0 1 0 h uncompilable hc hi (by rw [hm]; rfl)
    (by rw [hm]; decide) (by rw [hm]; rfl) wellFormed_uncompilable
  cases hid
  exact hpending hverdict

end ManagerState

end JudgeIt
