import JudgeIt.Submissions.Platform

/-!
# One message for each submission

Every row should have its one message in the topic. The rows and the messages are both unions of
what the processes of the platform contributed, and a submit request contributes one of each, or
nothing, or, when its message is lost, a row and no message. Nothing takes such a row back, so the
two stores agree exactly as long as no message is lost.
-/

namespace JudgeIt

open Async Transition

variable {s s' s₀ : Stores} {p : Pool Request Call.Res JsString Unit Stores}
  {l : List (Pool Request Call.Res JsString Unit Stores × Pool.Action Request Call.Res)}
  {proc : Process Request Call.Res JsString Unit}

/-! ## Contributions to the stores -/

/-- The row without what judging stores in it. -/
def Submission.submitted (row : Submission) : Submission :=
  { row with verdicate := "PENDING", execution_time := none, memory_user := none }

/-- The row created by an answered call. -/
def createdRow : Event Call.Res → Option Submission
  | ⟨.createSubmission _, .ok row⟩ => some row.submitted
  | _ => none

theorem createdRow_eq_none {x : Event Call.Res}
    (h : ∀ data row, x ≠ ⟨.createSubmission data, .ok row⟩) : createdRow x = none := by
  obtain ⟨op, r⟩ := x
  cases op with
  | createSubmission data =>
    cases r with
    | error e => rfl
    | ok row => exact absurd rfl (h data row)
  | _ => rfl

/-- The message stored by an answered call. -/
def storedMessage : Event Call.Res → Option SubmissionQueuedEvent
  | ⟨.send message, .acked⟩ | ⟨.send message, .unacknowledged _⟩ => some message
  | _ => none

namespace Stores

/-- Rows are only added: an update keeps what was submitted. -/
theorem Answers.submitted_eq {op : Call} {r : op.Res} (h : Stores.Answers s op r s') :
    s'.database.submissions.map (·.submitted)
      = s.database.submissions.map (·.submitted) ++ (createdRow ⟨op, r⟩).toList := by
  rcases h.1.cases with ⟨hdb, hno⟩ | ⟨data, row, hx, hcreate⟩ | ⟨id, v, t, m, hx, hupdate⟩ |
    ⟨data, hx, hinsert⟩
  · rw [hdb, createdRow_eq_none hno, Option.toList_none, List.append_nil]
  · obtain ⟨-, -, -, -, -, -, hs, -⟩ := Database.of_createSubmission hcreate
    rw [hx, hs, List.map_append]
    rfl
  · obtain ⟨id, memory, -, -, -, hdb⟩ := Database.updateSubmission_eq_some_iff.mp hupdate
    rw [hx, hdb]
    simp only [Database.modifySubmission, List.map_map, createdRow, Option.toList_none,
      List.append_nil]
    refine List.map_congr_left fun row _ ↦ ?_
    simp only [Function.comp_apply]
    split <;> rfl
  · rw [hx, Database.submissions_of_createMany hinsert]
    exact (List.append_nil _).symm

theorem Answers.topic_eq {op : Call} {r : op.Res} (h : Stores.Answers s op r s') :
    s'.topic = s.topic ++ (storedMessage ⟨op, r⟩).toList := by
  obtain ⟨-, h⟩ := h
  cases op with
  | send message => cases r <;> simpa [storedMessage] using h
  | _ => simpa [storedMessage] using h

end Stores

/-- The rows are those the processes created. -/
theorem submissions_perm (hrun : PlatformRun s₀ l p) (h₀ : s₀.Fresh) :
    (p.shared.database.submissions.map (·.submitted)).Perm (p.collect createdRow) :=
  Pool.collect_perm (g := fun s : Stores ↦ s.database.submissions.map (·.submitted)) hrun
    (by rw [h₀.submissions, List.map_nil]) fun _ _ _ _ h ↦ List.Perm.of_eq h.submitted_eq

/-- The messages are those the processes sent and did not lose. -/
theorem topic_perm (hrun : PlatformRun s₀ l p) (h₀ : s₀.Fresh) :
    p.shared.topic.Perm (p.collect storedMessage) :=
  Pool.collect_perm hrun h₀.topic fun _ _ _ _ h ↦ List.Perm.of_eq h.topic_eq

/-! ## What one request contributes -/

/-- A message that was sent and lost. -/
def Lost (x : Event Call.Res) : Prop := ∃ message err, x = ⟨.send message, .lost err⟩

theorem contribution_of_byJudge {tr : List (Event Call.Res)} (h : ∀ x ∈ tr, x.1.ByJudge) :
    tr.filterMap createdRow = [] ∧ tr.filterMap storedMessage = [] ∧ ¬∃ x ∈ tr, Lost x := by
  refine ⟨List.filterMap_eq_nil_iff.mpr ?_, List.filterMap_eq_nil_iff.mpr ?_, ?_⟩
  · rintro ⟨op, r⟩ hx
    cases op with
    | createSubmission => exact absurd (h _ hx) id
    | _ => rfl
  · rintro ⟨op, r⟩ hx
    cases op with
    | send => exact absurd (h _ hx) id
    | _ => rfl
  · rintro ⟨x, hx, message, err, rfl⟩
    exact h _ hx

/-- A request that is not a submission in progress contributes nothing, or a row and its message,
or, with its message lost, only a row. -/
theorem contribution_cases (hvalid : Pool.Valid serve p) (hproc : proc ∈ p.processes)
    (hidle : ∀ dto userId, proc.request = .submit dto userId → proc.Settled) :
    (proc.trace.filterMap createdRow = [] ∧ proc.trace.filterMap storedMessage = [] ∧
      ¬∃ x ∈ proc.trace, Lost x) ∨
    ∃ dto userId row timestamp,
      ⟨.createSubmission (submissionData dto userId), .ok row⟩ ∈ proc.trace ∧
      proc.trace.filterMap createdRow = [row.submitted] ∧
      ((¬(∃ x ∈ proc.trace, Lost x) ∧ ∃ user, proc.trace.filterMap storedMessage =
          [submissionQueuedEvent dto user row timestamp]) ∨
        ((∃ x ∈ proc.trace, Lost x) ∧ proc.trace.filterMap storedMessage = [])) := by
  cases hreq : proc.request with
  | judge event boxId =>
    obtain ⟨tr, out, h⟩ := (hvalid proc hproc).exists_eval
    rw [hreq] at h
    obtain ⟨out', h, -⟩ := eval_bind_unit h
    exact Or.inl (contribution_of_byJudge fun x hx ↦
      byJudge_of_mem h x (List.mem_append_left _ hx))
  | submit dto userId =>
    obtain ⟨out, h⟩ := hvalid.eval hproc (hidle dto userId hreq)
    rw [hreq] at h
    obtain ⟨out', h, -⟩ := eval_bind_unit h
    rcases eval_submit h with ⟨r, htr⟩ | ⟨r, err, htr⟩ | ⟨r, row, timestamp, sent, htr, -⟩
    · rw [htr]
      exact Or.inl ⟨rfl, rfl, by simp [Lost]⟩
    · rw [htr]
      exact Or.inl ⟨rfl, rfl, by simp [Lost]⟩
    · rw [htr]
      refine Or.inr ⟨dto, userId.parseInt, row, timestamp, by simp, rfl, ?_⟩
      cases sent with
      | acked => exact Or.inl ⟨by simp [Lost], userId, rfl⟩
      | unacknowledged err => exact Or.inl ⟨by simp [Lost], userId, rfl⟩
      | lost err => exact Or.inr ⟨by simp [Lost], rfl⟩

/-! ## Agreement of the stores -/

/-- Every row has had exactly one message sent for it, with its data. -/
def SentOnce (s : Stores) : Prop :=
  ∀ row ∈ s.database.submissions, ∃ message,
    s.topic.filter (·.submissionId = some row.id) = [message] ∧
    message.problemId = some row.problem_id ∧ message.language = some row.language ∧
    message.code = some row.source_code

/-- No submit request is in progress. -/
def Idle (p : Pool Request Call.Res JsString Unit Stores) : Prop :=
  ∀ proc ∈ p.processes, ∀ dto userId, proc.request = .submit dto userId → proc.Settled

/-- The stores agree: one message for each row, and none of the rows that failed requests left
behind waits forever. -/
structure Dispatched (p : Pool Request Call.Res JsString Unit Stores) : Prop where
  sent : SentOnce p.shared
  failed : ∀ proc ∈ p.processes, ∀ err, proc.rest = .throw err → ∀ data row,
    ⟨.createSubmission data, .ok row⟩ ∈ proc.trace →
    ∃ message ∈ p.shared.topic, message.submissionId = some row.id

/-- The action is no send whose message is lost. -/
def KeepsMessage (_ : Pool Request Call.Res JsString Unit Stores)
    (a : Pool.Action Request Call.Res) : Prop :=
  ∀ i message err, a ≠ .answer i ⟨.send message, .lost err⟩

theorem meets_keepsMessage_iff (hrun : PlatformRun s₀ l p) :
    Meets KeepsMessage l ↔ ∀ proc ∈ p.processes, ¬∃ x ∈ proc.trace, Lost x := by
  constructor
  · rintro hl proc hproc ⟨x, hx, message, err, rfl⟩
    obtain ⟨y, hy, i, hi⟩ := (Pool.mem_trace_iff hrun).mp ⟨proc, hproc, hx⟩
    exact hl y hy i message err hi
  · intro h y hy i message err hi
    obtain ⟨proc, hproc, hx⟩ := (Pool.mem_trace_iff hrun).mpr ⟨y, hy, i, hi⟩
    exact h proc hproc ⟨_, hx, message, err, rfl⟩

/-- A row is stored with the source code of its request. -/
theorem source_code_eq (hrun : PlatformRun s₀ l p) (proc : Process Request Call.Res JsString Unit)
    (hproc : proc ∈ p.processes) {data : SubmissionData} {row : Submission}
    (h : ⟨.createSubmission data, .ok row⟩ ∈ proc.trace) : row.source_code = data.source_code := by
  refine Pool.forall_mem_trace (Q := fun x : Event Call.Res ↦ ∀ data row,
    x = ⟨.createSubmission data, .ok row⟩ → row.source_code = data.source_code) hrun ?_ proc hproc _
      h data row rfl
  rintro s op r s' hE data row hx
  cases hx
  obtain ⟨-, -, -, -, hcode, -⟩ := Database.of_createSubmission hE.1
  exact hcode

theorem nodup_created (hrun : PlatformRun s₀ l p) (h₀ : s₀.Fresh) :
    (p.processes.flatMap fun proc ↦
      (proc.trace.filterMap createdRow).map fun row ↦ some row.id).Nodup := by
  have hids : (p.shared.database.submissions.map fun row ↦ some row.id).Nodup := by
    rw [← Function.comp_def some, ← List.map_map]
    exact p.shared.database.nodup_submissions.map (Option.some_injective ℤ)
  have hperm := (submissions_perm hrun h₀).map fun row ↦ some row.id
  rw [List.map_map] at hperm
  rw [← List.map_flatMap]
  exact hperm.nodup_iff.mp hids

theorem nodup_topic (hrun : PlatformRun s₀ l p) (h₀ : s₀.Fresh) (hidle : Idle p) :
    (p.shared.topic.map (·.submissionId)).Nodup := by
  have hperm := (topic_perm hrun h₀).map (·.submissionId)
  rw [hperm.nodup_iff, Pool.collect, List.map_flatMap]
  refine (nodup_created hrun h₀).sublist (List.Sublist.flatMap_right _ fun proc hproc ↦ ?_)
  rcases contribution_cases (Pool.valid hrun) hproc (hidle proc hproc) with ⟨-, hm, -⟩ |
    ⟨dto, userId, row, timestamp, -, hr, ⟨-, user, hm⟩ | ⟨-, hm⟩⟩
  · rw [hm]
    exact List.nil_sublist _
  · rw [hm, hr]
    exact List.Sublist.refl _
  · rw [hm]
    exact List.nil_sublist _

/-- The message of a row that a process created, unless that process lost it. -/
theorem exists_message (hrun : PlatformRun s₀ l p) (h₀ : s₀.Fresh) (hidle : Idle p)
    (hproc : proc ∈ p.processes) (hkept : ¬∃ x ∈ proc.trace, Lost x) {row : Submission}
    (hrow : row ∈ proc.trace.filterMap createdRow) :
    ∃ message ∈ p.shared.topic, message.submissionId = some row.id ∧
      message.problemId = some row.problem_id ∧ message.language = some row.language ∧
      message.code = some row.source_code := by
  rcases contribution_cases (Pool.valid hrun) hproc (hidle proc hproc) with ⟨hr, -, -⟩ |
    ⟨dto, userId, row', timestamp, hcreate, hr, ⟨-, user, hm⟩ | ⟨hlost, -⟩⟩
  · rw [hr] at hrow
    cases hrow
  · rw [hr, List.mem_singleton] at hrow
    have hcode := source_code_eq hrun proc hproc hcreate
    have hmem : submissionQueuedEvent dto user row' timestamp ∈ p.collect storedMessage :=
      List.mem_flatMap.mpr ⟨proc, hproc, by simp [hm]⟩
    refine ⟨_, (topic_perm hrun h₀).symm.subset hmem, ?_⟩
    rw [hrow]
    exact ⟨rfl, rfl, rfl, congrArg some hcode.symm⟩
  · exact absurd hlost hkept

/-- A message that names a row was sent by the process that created it: no other process created a
row of that number. -/
theorem storedMessage_ne_nil (hrun : PlatformRun s₀ l p) (h₀ : s₀.Fresh) (hidle : Idle p)
    (hproc : proc ∈ p.processes) {row : Submission}
    (hrow : row ∈ proc.trace.filterMap createdRow) {message : SubmissionQueuedEvent}
    (hmessage : message ∈ p.shared.topic) (hname : message.submissionId = some row.id) :
    proc.trace.filterMap storedMessage ≠ [] := by
  obtain ⟨proc', hproc', hstored⟩ :=
    List.mem_flatMap.mp ((topic_perm hrun h₀).subset hmessage)
  rcases contribution_cases (Pool.valid hrun) hproc' (hidle proc' hproc') with ⟨-, hm, -⟩ |
    ⟨dto, userId, row', timestamp, -, hr, ⟨-, user, hm⟩ | ⟨-, hm⟩⟩
  · rw [hm] at hstored
    cases hstored
  · rw [hm, List.mem_singleton] at hstored
    have hid : some row'.id = some row.id := by
      rw [← hname, hstored]
      rfl
    obtain rfl : proc = proc' := List.eq_of_mem_flatMap (nodup_created hrun h₀) hproc hproc'
      (b := some row.id) (List.mem_map_of_mem hrow) (by simp [hr, Submission.submitted, hid])
    rw [hm]
    exact List.cons_ne_nil _ _
  · rw [hm] at hstored
    cases hstored

/-- With no submit request in progress, the database and the topic agree exactly when no message
was lost in the run. -/
theorem dispatched_iff (hrun : PlatformRun s₀ l p) (h₀ : s₀.Fresh) (hidle : Idle p) :
    Dispatched p ↔ Meets KeepsMessage l := by
  have hrows := submissions_perm hrun h₀
  rw [meets_keepsMessage_iff hrun]
  constructor
  · rintro ⟨hsent, -⟩ proc hproc hlost
    rcases contribution_cases (Pool.valid hrun) hproc (hidle proc hproc) with ⟨-, -, hnot⟩ |
      ⟨dto, userId, row, timestamp, -, hr, ⟨hnot, -⟩ | ⟨-, hnone⟩⟩
    · exact hnot hlost
    · exact hnot hlost
    -- the row is in the database, so it has a message, but its process has sent none
    have hcreated : row.submitted ∈ proc.trace.filterMap createdRow := by simp [hr]
    obtain ⟨row', hrow', hsub⟩ :=
      List.mem_map.mp (hrows.symm.subset (List.mem_flatMap.mpr ⟨proc, hproc, hcreated⟩))
    obtain ⟨message, hfilter, -⟩ := hsent row' hrow'
    obtain ⟨hmessage, hname⟩ := List.mem_filter.mp (hfilter ▸ List.mem_singleton_self message)
    have hid : row'.id = row.submitted.id := by
      rw [← hsub]
      rfl
    rw [hid, decide_eq_true_iff] at hname
    exact storedMessage_ne_nil hrun h₀ hidle hproc hcreated hmessage hname hnone
  · intro hkeep
    refine ⟨fun row hrow ↦ ?_, fun proc hproc err _ data row hrow ↦ ?_⟩
    · obtain ⟨proc, hproc, hmem⟩ :=
        List.mem_flatMap.mp (hrows.subset (List.mem_map_of_mem hrow))
      obtain ⟨message, hmessage, hname, hdata⟩ :=
        exists_message hrun h₀ hidle hproc (hkeep proc hproc) hmem
      have hfilter := List.filter_key_eq_singleton (nodup_topic hrun h₀ hidle) hmessage
      rw [hname] at hfilter
      exact ⟨message, hfilter, hdata⟩
    · obtain ⟨message, hmessage, hname, -⟩ := exists_message hrun h₀ hidle hproc (hkeep proc hproc)
        (List.mem_filterMap.mpr ⟨_, hrow, rfl⟩)
      exact ⟨message, hmessage, hname⟩

/-! ## A row without a message -/

/-- A submit request whose message is lost. -/
def orphanTrace : List (Event Call.Res) :=
  [⟨.findProblem (some 7), .ok (some printProblem)⟩,
    ⟨.createSubmission (submissionData printSolution (some 3)), .ok printRow⟩,
    ⟨.timestamp, JsString.ofString "2025-01-01T00:00:00.000Z"⟩,
    ⟨.send printEvent, .lost "KafkaJSRequestTimeoutError"⟩]

/-- The pool with that request settled. -/
def orphanPool : Pool Request Call.Res JsString Unit Stores :=
  ⟨[⟨.submit printSolution "3", orphanTrace, .throw "KafkaJSRequestTimeoutError"⟩],
    ⟨printDatabase, []⟩⟩

theorem run_orphanPool : ∃ l, PlatformRun newPlatform l orphanPool := by
  have heval : (serve (.submit printSolution "3")).Eval orphanTrace
      (.error "KafkaJSRequestTimeoutError") :=
    ⟨_, _, rfl, _, _, rfl, _, _, rfl, _, _, rfl, rfl, rfl⟩
  exact Pool.exists_run_serve .nil heval ⟨_, ⟨⟨rfl, rfl⟩, rfl⟩, ⟨printDatabase, []⟩, ⟨rfl, rfl⟩, _,
    ⟨rfl, rfl⟩, _, ⟨rfl, rfl⟩, rfl⟩

theorem idle_orphanPool : Idle orphanPool := fun _ hproc _ _ _ ↦
  ⟨.error "KafkaJSRequestTimeoutError", by rw [List.mem_singleton.mp hproc]; rfl⟩

/-- The iff applies to that run. -/
theorem dispatched_iff_orphanPool : ∃ l, PlatformRun newPlatform l orphanPool ∧
    (Dispatched orphanPool ↔ Meets KeepsMessage l) := by
  obtain ⟨l, hrun⟩ := run_orphanPool
  exact ⟨l, hrun, dispatched_iff hrun ⟨rfl, rfl⟩ idle_orphanPool⟩

/-- A failed submit request leaves a row that no message will ever be sent for. -/
theorem orphan_submission : newPlatform.Fresh ∧ (∃ l, PlatformRun newPlatform l orphanPool) ∧
    Idle orphanPool ∧ ¬Dispatched orphanPool := by
  refine ⟨⟨rfl, rfl⟩, run_orphanPool, idle_orphanPool, fun h ↦ ?_⟩
  obtain ⟨message, hfilter, -⟩ := h.sent printRow List.mem_cons_self
  cases hfilter

end JudgeIt
