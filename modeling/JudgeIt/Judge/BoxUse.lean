import JudgeIt.Judge.Submission

/-!
# How the judge uses its box

Judging makes at most one sequence of `isolate` commands: an init of its own box, compilations and
runs in it, and one cleanup. The sequence ends with the cleanup, or with the init itself when that
is rejected; nothing comes before the init or after the end, whatever fails in between. This is
stated through a monitor, so that it also says what the rest of a judge may still do after any
number of answers.
-/

namespace JudgeIt

open Async Judging Program

/-- Where a submission stands with its box. -/
inductive BoxUse
  | before
  | inside
  | ended
  deriving DecidableEq

/-- The box an `isolate` command is for. -/
def Call.isolateBox : Call → Option ℕ
  | exec (.init boxId) | exec (.cleanup boxId) => some boxId
  | exec (.compile command) => some command.boxId
  | exec (.run command) => some command.boxId
  | exec (.chmod _) | exec (.cat _) | exec (.catMeta _) | exec (.rmMeta _) | writeFile ..
  | readFile _
  | now | createSubmission _ | timestamp | send _ | getTestCases _ | findProblem _ | getTime _
  | updateSubmission .. | createMany _ | observe _ => none

/-- The monitor of one sequence of `isolate` commands for the given box. -/
def boxMonitor (boxId : ℕ) : Monitor BoxUse Call.Res := fun use op r ↦
  match op, r, use with
  | .exec (.init b), .ok _, .before => if b = boxId then some .inside else none
  | .exec (.init b), .error _, .before => if b = boxId then some .ended else none
  | .exec (.cleanup b), _, .inside => if b = boxId then some .ended else none
  | .exec (.compile command), _, .inside => if command.boxId = boxId then some .inside else none
  | .exec (.run command), _, .inside => if command.boxId = boxId then some .inside else none
  | op, _, use => if op.isolateBox = none then some use else none

/-- The event ends the sequence for a box: a cleanup of it, or a rejected init. -/
def EndsBoxUse (boxId : ℕ) (x : Event Call.Res) : Prop :=
  (∃ r, x = ⟨.exec (.cleanup boxId), r⟩) ∨ ∃ e, x = ⟨.exec (.init boxId), .error e⟩

/-! ## What the monitor accepts -/

variable {boxId b : ℕ} {use use' : BoxUse} {op : Call} {r : op.Res} {tr : List (Event Call.Res)}

theorem boxMonitor_of_isolateBox (h : op.isolateBox = none) :
    boxMonitor boxId use op r = some use := by
  cases op with
  | exec command =>
    cases command with
    | init b => cases h
    | cleanup b => cases h
    | compile command => cases h
    | run command => cases h
    | _ => rfl
  | _ => rfl

theorem boxMonitor_of_inBox (h : op.InBox boxId) :
    boxMonitor boxId .inside op r = some .inside := by
  cases op with
  | exec command =>
    cases command with
    | init b => cases h
    | cleanup b => cases h
    | compile command => exact if_pos h
    | run command => exact if_pos h
    | _ => rfl
  | writeFile file content => rfl
  | readFile file => rfl
  | now => rfl
  | _ => cases h

/-- One step of the monitor: it ignores other calls, and of `isolate` commands it accepts those for
its box, one sequence of them. -/
theorem boxMonitor_cases (h : boxMonitor boxId use op r = some use') :
    (op.isolateBox = none ∧ use' = use) ∨
    (op.isolateBox = some boxId ∧ use ≠ .ended ∧ use' ≠ .before ∧
      (use' = .ended → EndsBoxUse boxId ⟨op, r⟩)) := by
  by_cases hop : op.isolateBox = none
  · rw [boxMonitor_of_isolateBox hop] at h
    exact Or.inl ⟨hop, (Option.some.inj h).symm⟩
  refine Or.inr ?_
  cases op with
  | exec command =>
    cases command with
    | init b =>
      cases use with
      | before =>
        cases r with
        | ok stdout =>
          obtain ⟨rfl, rfl⟩ : b = boxId ∧ BoxUse.inside = use' := by simpa [boxMonitor] using h
          exact ⟨rfl, by simp, by simp, by simp⟩
        | error e =>
          obtain ⟨rfl, rfl⟩ : b = boxId ∧ BoxUse.ended = use' := by simpa [boxMonitor] using h
          exact ⟨rfl, by simp, by simp, fun _ ↦ Or.inr ⟨e, rfl⟩⟩
      | inside => cases r <;> simp [boxMonitor, Call.isolateBox] at h
      | ended => cases r <;> simp [boxMonitor, Call.isolateBox] at h
    | cleanup b =>
      cases use with
      | before => simp [boxMonitor, Call.isolateBox] at h
      | inside =>
        obtain ⟨rfl, rfl⟩ : b = boxId ∧ BoxUse.ended = use' := by simpa [boxMonitor] using h
        exact ⟨rfl, by simp, by simp, fun _ ↦ Or.inl ⟨r, rfl⟩⟩
      | ended => simp [boxMonitor, Call.isolateBox] at h
    | compile command =>
      cases use with
      | before => simp [boxMonitor, Call.isolateBox] at h
      | inside =>
        obtain ⟨hb, rfl⟩ : command.boxId = boxId ∧ BoxUse.inside = use' := by
          simpa [boxMonitor] using h
        exact ⟨congrArg some hb, by simp, by simp, by simp⟩
      | ended => simp [boxMonitor, Call.isolateBox] at h
    | run command =>
      cases use with
      | before => simp [boxMonitor, Call.isolateBox] at h
      | inside =>
        obtain ⟨hb, rfl⟩ : command.boxId = boxId ∧ BoxUse.inside = use' := by
          simpa [boxMonitor] using h
        exact ⟨congrArg some hb, by simp, by simp, by simp⟩
      | ended => simp [boxMonitor, Call.isolateBox] at h
    | _ => exact absurd rfl hop
  | _ => exact absurd rfl hop

/-- Before the beginning of the sequence there is no `isolate` command. -/
theorem scan_boxMonitor_before (h : (boxMonitor boxId).scan use tr = some .before) :
    use = .before ∧ ∀ z ∈ tr, z.1.isolateBox = none := by
  induction tr generalizing use with
  | nil => exact ⟨Option.some.inj h, by simp⟩
  | cons z tr ih =>
    obtain ⟨use', hz, htr⟩ := Option.bind_eq_some_iff.mp h
    obtain ⟨huse, hall⟩ := ih htr
    rcases boxMonitor_cases hz with ⟨hop, rfl⟩ | ⟨-, -, hne, -⟩
    · exact ⟨huse, List.forall_mem_cons.mpr ⟨hop, hall⟩⟩
    · exact absurd huse hne

theorem scan_boxMonitor_ended (h : (boxMonitor boxId).scan .ended tr = some use) :
    use = .ended ∧ ∀ z ∈ tr, z.1.isolateBox = none := by
  induction tr with
  | nil => exact ⟨(Option.some.inj h).symm, by simp⟩
  | cons z tr ih =>
    obtain ⟨use', hz, htr⟩ := Option.bind_eq_some_iff.mp h
    rcases boxMonitor_cases hz with ⟨hop, rfl⟩ | ⟨-, hne, -, -⟩
    · obtain ⟨huse, hall⟩ := ih htr
      exact ⟨huse, List.forall_mem_cons.mpr ⟨hop, hall⟩⟩
    · exact absurd rfl hne

theorem isolateBox_of_scan_boxMonitor (h : (boxMonitor boxId).scan use tr = some use') :
    ∀ z ∈ tr, ∀ b ∈ z.1.isolateBox, b = boxId := by
  induction tr generalizing use with
  | nil => simp
  | cons z tr ih =>
    obtain ⟨use₁, hz, htr⟩ := Option.bind_eq_some_iff.mp h
    refine List.forall_mem_cons.mpr ⟨fun b hb ↦ ?_, ih htr⟩
    rcases boxMonitor_cases hz with ⟨hop, -⟩ | ⟨hop, -, -, -⟩
    · rw [hop] at hb
      cases hb
    · rw [hop] at hb
      exact (Option.mem_some_iff.mp hb).symm

theorem exists_endsBoxUse (hne : use ≠ .ended)
    (h : (boxMonitor boxId).scan use tr = some .ended) : ∃ z ∈ tr, EndsBoxUse boxId z := by
  induction tr generalizing use with
  | nil => exact absurd (Option.some.inj h) hne
  | cons z tr ih =>
    obtain ⟨use₁, hz, htr⟩ := Option.bind_eq_some_iff.mp h
    by_cases hu : use₁ = .ended
    · rcases boxMonitor_cases hz with ⟨-, rfl⟩ | ⟨-, -, -, hend⟩
      · exact absurd hu hne
      · exact ⟨z, List.mem_cons_self, hend hu⟩
    · obtain ⟨y, hy, hend⟩ := ih hu htr
      exact ⟨y, List.mem_cons_of_mem z hy, hend⟩

/-! ## The judge -/

theorem keeps_of_isolateBox {α : Type} (h : op.isolateBox = none) {f : op.Res → Judging α}
    (hf : ∀ r, (f r).Keeps (boxMonitor boxId) use) :
    ((Program.request op).bind f).Keeps (boxMonitor boxId) use :=
  (keeps_request fun _ ↦ boxMonitor_of_isolateBox h).bind hf

theorem runBatch_keeps_inside {code : Option JsString} {langConfig : LanguageConfig}
    {testCases : List TestCase} {config : ExecutionConfig} {boxPath : JsString} :
    (runBatch boxId code langConfig testCases config boxPath).Keeps (boxMonitor boxId) .inside :=
  runBatch_keeps.of_only fun _ _ ↦ boxMonitor_of_inBox

/-- **A batch makes one sequence of `isolate` commands**, or none when the language is not
supported. -/
theorem executeBatch_obeys {code language : Option JsString} {testCases : List TestCase}
    {config : PartialConfig} :
    (executeBatch boxId code language testCases config).Obeys (boxMonitor boxId) .before
      fun _ use ↦ use ≠ .inside := by
  rw [executeBatch]
  cases languages language with
  | none => exact BoxUse.noConfusion
  | some langConfig =>
    have hinit : (initBox boxId).Obeys (boxMonitor boxId) .before fun out use ↦
        (∃ boxPath, out = .ok boxPath ∧ use = .inside) ∨ ∃ e, out = .error e ∧ use = .ended := by
      intro r
      cases r with
      | ok stdout => exact ⟨.inside, if_pos rfl, Or.inl ⟨_, rfl, rfl⟩⟩
      | error e => exact ⟨.ended, if_pos rfl, Or.inr ⟨e, rfl, rfl⟩⟩
    refine obeys_attempt_bind (hinit.mono fun out use huse ↦ ?_)
    rcases huse with ⟨boxPath, rfl, rfl⟩ | ⟨e, rfl, rfl⟩
    · refine obeys_tryFinally (Obeys.mono
        (runBatch_keeps_inside.tryCatch fun _ ↦ keeps_pure _) fun out use huse ↦ ?_)
      subst huse
      intro r
      cases r <;> exact ⟨.ended, if_pos rfl, BoxUse.noConfusion⟩
    · exact BoxUse.noConfusion

/-- **The judge makes one sequence of `isolate` commands at most**, and leaves no box open. -/
theorem judgeSubmission_obeys (submissionDetails : Option SubmissionQueuedEvent) (boxId : ℕ) :
    (judgeSubmission submissionDetails boxId).Obeys (boxMonitor boxId) .before
      fun _ use ↦ use ≠ .inside := by
  cases submissionDetails with
  | none => exact BoxUse.noConfusion
  | some e =>
    have hrun : (runSubmission e boxId).Obeys (boxMonitor boxId) .before fun _ use ↦
        use ≠ .inside := by
      have hload : (both (getTestCases e.problemId) (getProblemDetails e.problemId)).Keeps
          (boxMonitor boxId) .before :=
        (keeps_of_isolateBox rfl keeps_ofExcept).both (keeps_of_isolateBox rfl fun r ↦ by
          cases r with
          | error err => rfl
          | ok problem => cases problem <;> rfl)
      refine hload.obeys_bind (fun loaded ↦ ?_) fun _ ↦ BoxUse.noConfusion
      refine obeys_bind (executeBatch_obeys.mono fun out use huse ↦ ?_)
      cases out with
      | error err => exact huse
      | ok results =>
        refine (keeps_ofExcept _).obeys_bind (fun verdicates ↦ ?_) fun _ ↦ huse
        refine (keeps_collect (fun j ↦ ?_) _).obeys_bind (fun rows ↦ huse) fun _ ↦ huse
        exact keeps_of_isolateBox rfl fun _ ↦ keeps_pure _
    refine obeys_bind (hrun.mono fun out use huse ↦ ?_)
    cases out with
    | error err => exact huse
    | ok judged =>
      refine (keeps_of_isolateBox rfl keeps_ofExcept).obeys_bind (fun _ ↦ ?_) fun _ ↦ huse
      refine (keeps_of_isolateBox rfl keeps_ofExcept).obeys_bind (fun _ ↦ ?_) fun _ ↦ huse
      refine Keeps.obeys_bind ?_ (fun _ ↦ huse) fun _ ↦ huse
      exact keeps_of_isolateBox rfl fun startTime ↦ keeps_of_isolateBox rfl fun finishTime ↦
        keeps_of_isolateBox rfl keeps_ofExcept

end JudgeIt
