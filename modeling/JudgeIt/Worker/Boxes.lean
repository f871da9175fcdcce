import JudgeIt.Judge.BoxUse
import JudgeIt.Submissions.Redelivery
import JudgeIt.Worker.Backpressure
import JudgeIt.Worker.Deployment

/-!
# One submission at a time in a box

No two handlers hold the same box, so at most as many submissions are judged at once as there are
boxes. That the `isolate` commands of two submissions on one box are apart in time needs two more
facts: a handler only commands the box it holds, and it has ended its sequence of commands by the
time it gives the box up. `Claimed` combines them over the record: since a box was granted to its
holder nobody else has commanded it, and everybody who had commanded it before has ended.
-/

namespace JudgeIt

open Async Transition

namespace ManagerState

section Holders

variable {Op : Type} {Res : Op → Type} {ε P V ω : Type} {d : Deployment Res ε P V}
  {s s' : ManagerState Res ε P V ω} {i j b : ℕ} {E : Env ω Res} {other : ω → ω → Prop}
  {a : Action Res ε P ω}

/-- Handler `i` is between the grant and the release of box `b`. -/
def Holds (s : ManagerState Res ε P V ω) (i b : ℕ) : Prop :=
  ∃ h, s.handlers[i]? = some h ∧ h.phase.box = some b

/-- Handler `i` is in `judgeSubmission`. -/
def Judges (s : ManagerState Res ε P V ω) (i : ℕ) : Prop :=
  ∃ m b x, s.handlers[i]? = some ⟨m, .judging b x⟩

/-- **Mutual exclusion.** -/
theorem Capacity.eq_of_holds (h : Capacity d s) (hi : s.Holds i b) (hj : s.Holds j b) : i = j := by
  obtain ⟨h₁, hi, hb₁⟩ := hi
  obtain ⟨h₂, hj, hb₂⟩ := hj
  obtain ⟨hli, hi⟩ := List.getElem?_eq_some_iff.mp hi
  obtain ⟨hlj, hj⟩ := List.getElem?_eq_some_iff.mp hj
  have hpair := List.pairwise_iff_getElem.mp (List.pairwise_filterMap.mp h.nodup_held)
  have hlt : ∀ {k k' : ℕ} (hk : k < s.handlers.length) (hk' : k' < s.handlers.length), k < k' →
      s.handlers[k].phase.box = some b → s.handlers[k'].phase.box ≠ some b :=
    fun hk hk' hlt hb hb' ↦ hpair _ _ hk hk' hlt b hb b hb' rfl
  rcases lt_trichotomy i j with hij | hij | hij
  · exact absurd (hj ▸ hb₂) (hlt hli hlj hij (hi ▸ hb₁))
  · exact hij
  · exact absurd (hi ▸ hb₁) (hlt hlj hli hij (hj ▸ hb₂))

theorem Capacity.lt_of_holds (h : Capacity d s) (hi : s.Holds i b) : b < d.workers :=
  h.lt_of_mem_held (mem_held_iff.mpr ⟨i, hi⟩)

theorem Capacity.card_le (h : Capacity d s) {js : Finset ℕ} (hjs : ∀ i ∈ js, ∃ b, s.Holds i b) :
    js.card ≤ d.workers := by
  choose! box hbox using hjs
  rw [← Finset.card_range d.workers]
  refine Finset.card_le_card_of_injOn box (fun i hi ↦ ?_) fun i hi j hj hij ↦ ?_
  · exact Finset.mem_coe.mpr (Finset.mem_range.mpr (h.lt_of_holds (hbox i hi)))
  · exact h.eq_of_holds (hbox i hi) (hij ▸ hbox j hj)

theorem box_of_life {h : Option (Handler Res ε P V)} {h' : Handler Res ε P V}
    {r r' : List (Happened Res ε V)} (hlife : Life d i h r (some h') r')
    (hb : h'.phase.box = some b) : (∃ h₀, h = some h₀ ∧ h₀.phase.box = some b) ∨
      (r' = r ++ [.granted i b] ∧ h'.phase = .granted b) := by
  cases hlife with
  | wait m => cases hb
  | deliver m b' =>
    cases hb
    exact Or.inr ⟨rfl, rfl⟩
  | grant b' =>
    cases hb
    exact Or.inr ⟨rfl, rfl⟩
  | skip _ => exact Or.inl ⟨_, rfl, hb⟩
  | judge _ => exact Or.inl ⟨_, rfl, hb⟩
  | call x => exact Or.inl ⟨_, rfl, hb⟩
  | unparsed _ hp => exact absurd (hp.box_eq.symm.trans hb) (by simp)
  | finish hp => exact absurd (hp.box_eq.symm.trans hb) (by simp)
  | settle => cases hb

/-- A handler that holds a box has held it before the step, or the step grants it. -/
theorem holds_step (hcap : Capacity d s) (hs : Step d E other s a s')
    {es : List (Happened Res ε V)} (hh : s'.history = s.history ++ es) (hj : s'.Holds j b) :
    s.Holds j b ∨ (.granted j b ∈ es ∧ ∃ m, s'.handlers[j]? = some ⟨m, .granted b⟩) := by
  obtain ⟨⟨m, phase⟩, hhandler, hb⟩ := hj
  rcases life_of_step hcap hs j with ⟨hsame, -⟩ | hlife
  · exact Or.inl ⟨_, hsame ▸ hhandler, hb⟩
  rw [Lives, hhandler] at hlife
  rcases box_of_life hlife hb with hold | ⟨hr, hphase⟩
  · exact Or.inl hold
  · rw [recordOf_append hh] at hr
    have hmem : .granted j b ∈ es.filter (·.handler = j) := by
      rw [List.append_cancel_left hr]
      exact List.mem_cons_self
    exact Or.inr ⟨(List.mem_filter.mp hmem).1, m, hphase ▸ hhandler⟩

end Holders

section Sequences

variable {ω : Type} {workers : ℕ} {assigned : List ℕ} {s s' : WorkerState ω} {i j b : ℕ}
  {x : Event Call.Res} {E : Env ω Call.Res} {other : ω → ω → Prop} {group : GroupOffsets}
  {world : ω} {l : List (WorkerState ω × WorkerAction ω)}

/-- A handler follows the monitor of one box: the one it holds while it judges. Past its `finally`
block it is not inside. -/
theorem exists_scan_calls (hf : Followed (judgeDeployment workers assigned) s) (i : ℕ) :
    ∃ b use, (boxMonitor b).scan .before (s.calls i) = some use ∧
      (s.Holds i b ∨ use ≠ .inside) := by
  have hnil : s.calls i = [] → ∃ b use, (boxMonitor b).scan .before (s.calls i) = some use ∧
      (s.Holds i b ∨ use ≠ .inside) := fun hc ↦
    ⟨0, .before, by rw [hc]; rfl, Or.inr BoxUse.noConfusion⟩
  have hpast : ∀ b payload out, (judgeSubmission payload b).Eval (s.calls i) out →
      ∃ b use, (boxMonitor b).scan .before (s.calls i) = some use ∧
        (s.Holds i b ∨ use ≠ .inside) := fun b payload out heval ↦ by
    obtain ⟨use, hscan, hne⟩ := (judgeSubmission_obeys payload b).scan_eq heval
    exact ⟨b, use, hscan, Or.inr hne⟩
  have hi := hf i
  rcases hh : s.handlers[i]? with _ | ⟨m, phase⟩
  · rw [hh] at hi
    exact hnil hi.1
  rw [hh] at hi
  cases phase with
  | waiting => exact hnil hi.1
  | granted b => exact hnil hi.1
  | skipped b => exact hnil hi.1
  | judging b y =>
    obtain ⟨-, payload, -, hafter⟩ := hi
    obtain ⟨use, hscan, -⟩ := (judgeSubmission_obeys payload b).scan_of_after hafter
    exact ⟨b, use, hscan, Or.inl ⟨_, hh, rfl⟩⟩
  | committing =>
    rcases hi with ⟨hc, -, -⟩ | ⟨b, payload, out, -, -, -, heval⟩
    · exact hnil hc
    · exact hpast b payload out heval
  | settled =>
    rcases hi with ⟨hc, -, -⟩ | ⟨b, payload, out, -, -, -, heval⟩
    · exact hnil hc
    · exact hpast b payload out heval

/-- A handler that has commanded a box has only commanded that one, and it holds it or has ended. -/
theorem holds_or_ended (hf : Followed (judgeDeployment workers assigned) s) (hx : x ∈ s.calls i)
    (hb : x.1.isolateBox = some b) : ∃ use, (boxMonitor b).scan .before (s.calls i) = some use ∧
      (s.Holds i b ∨ use = .ended) := by
  obtain ⟨b', use, hscan, hor⟩ := exists_scan_calls hf i
  obtain rfl : b = b' := isolateBox_of_scan_boxMonitor hscan x hx b hb
  refine ⟨use, hscan, hor.imp_right fun hne ↦ ?_⟩
  cases use with
  | before =>
    have hnone := (scan_boxMonitor_before hscan).2 x hx
    rw [hb] at hnone
    cases hnone
  | inside => exact absurd rfl hne
  | ended => rfl

theorem eq_of_pending (hf : Followed (judgeDeployment workers assigned) s)
    {m : Message JsString (Option SubmissionQueuedEvent)} {b' : ℕ} {op : Call}
    {k : op.Res → Judging (List JsString)} (r : op.Res)
    (hi : s.handlers[i]? = some ⟨m, .judging b' (.call op k)⟩) (hb : op.isolateBox = some b) :
    b = b' := by
  have hfi := hf i
  rw [hi] at hfi
  obtain ⟨-, payload, -, hafter⟩ := hfi
  obtain ⟨use, hscan, -⟩ := (judgeSubmission_obeys payload b').scan_of_after (hafter.answered r)
  exact isolateBox_of_scan_boxMonitor hscan ⟨op, r⟩ (by simp) b hb

/-- Box `b` is free for handler `j` to command: it was granted to `j`, nobody else has commanded it
since, and whoever commanded it before had ended. -/
def Claimed (history : List (Happened Call.Res JsString (List JsString))) (j b : ℕ) : Prop :=
  ∃ pre post, history = pre ++ .granted j b :: post ∧
    (∀ i x, .called i x ∈ post → x.1.isolateBox = some b → i = j) ∧
    ∀ i x, .called i x ∈ pre → x.1.isolateBox = some b →
      (boxMonitor b).scan .before (callsIn i pre) = some .ended

/-- Every held box is claimed. -/
def Claims (s : WorkerState ω) : Prop := ∀ j b, s.Holds j b → Claimed s.history j b

theorem Claims.step (h : Claims s) (hcap : Capacity (judgeDeployment workers assigned) s)
    (hf : Followed (judgeDeployment workers assigned) s)
    (hf' : Followed (judgeDeployment workers assigned) s') {a : WorkerAction ω}
    (hs : Step (judgeDeployment workers assigned) E other s a s') : Claims s' := by
  intro j b hj
  obtain ⟨es, hes, hcalled⟩ := record_step hs
  rcases holds_step hcap hs hes hj with hold | ⟨hgranted, m, hm⟩
  · -- held before: the step may add a command, but only of the holder
    obtain ⟨pre, post, hh, hpost, hpre⟩ := h j b hold
    refine ⟨pre, post ++ es, by rw [hes, hh, List.append_assoc, List.cons_append], ?_, hpre⟩
    intro i x hx hb
    rcases List.mem_append.mp hx with hx | hx
    · exact hpost i x hx hb
    rcases hcalled with ⟨hnone, -⟩ | ⟨i', m, b', op, k, r, -, rfl, hi, -⟩
    · exact absurd hx (hnone i x)
    · cases List.mem_singleton.mp hx
      obtain rfl := eq_of_pending hf r hi hb
      exact hcap.eq_of_holds ⟨_, hi, rfl⟩ hold
  · -- just granted: whoever commanded the box so far does not hold it any more
    have hnone : ∀ i x, .called i x ∉ es := by
      rcases hcalled with ⟨hnone, -⟩ | ⟨i', m, b', op, k, r, -, rfl, -⟩
      · exact hnone
      · cases List.mem_singleton.mp hgranted
    obtain ⟨es₁, es₂, rfl⟩ := List.append_of_mem hgranted
    refine ⟨s.history ++ es₁, es₂, by rw [hes, List.append_assoc], fun i x hx _ ↦ ?_, ?_⟩
    · exact absurd (by simp [hx]) (hnone i x)
    intro i x hx hb
    have hcalls : callsIn i (s.history ++ es₁) = s'.calls i := by
      have h₁ : callsIn i es₁ = [] := callsIn_eq_nil fun i x hx ↦ hnone i x (by simp [hx])
      have h₂ : s'.calls i = callsIn i s'.history := rfl
      rw [h₂, hes, callsIn_append, callsIn_append, callsIn_eq_nil hnone, h₁]
    have hx' : x ∈ s'.calls i := hcalls ▸ mem_callsIn_iff.mpr hx
    obtain ⟨use, hscan, hi | rfl⟩ := holds_or_ended hf' hx' hb
    · obtain rfl := (hcap.step hs).eq_of_holds hi hj
      have hfi := hf' i
      rw [hm] at hfi
      rw [hfi.1] at hx'
      cases hx'
    · rw [hcalls]
      exact hscan

/-- **Boxes are claimed in every run.** -/
theorem Claims.run (hrun : ManagerRun (judgeDeployment workers assigned) E other group world l s) :
    Claims s := by
  induction hrun with
  | nil =>
    rintro j b ⟨h, hj, -⟩
    simp [ManagerState.init] at hj
  | snoc hr hs ih =>
    exact ih.step (Capacity.run hr) (Followed.run hr) (Followed.run (hr.snoc hs)) hs

/-- At every command on record the box was claimed. -/
def Serialized (history : List (Happened Call.Res JsString (List JsString))) : Prop :=
  ∀ pre post j y b, history = pre ++ .called j y :: post → y.1.isolateBox = some b →
    Claimed pre j b

theorem Serialized.run
    (hrun : ManagerRun (judgeDeployment workers assigned) E other group world l s) :
    Serialized s.history := by
  induction hrun with
  | nil =>
    intro pre post j y b hh
    simp [ManagerState.init] at hh
  | snoc hr hs ih =>
    intro pre post j y b hh hb
    obtain ⟨es, hes, hcalled⟩ := record_step hs
    rcases List.eq_append_cons_of_append (hes.symm.trans hh) with
      ⟨post', hold, -⟩ | ⟨pre', hnew, rfl⟩
    · exact ih pre post' j y b hold hb
    rcases hcalled with ⟨hnone, -⟩ | ⟨i', m, b', op, k, r, -, rfl, hi, -⟩
    · exact absurd (by simp [hnew]) (hnone j y)
    · cases pre' with
      | nil =>
        -- the command is the one of this step, and its handler holds the box it names
        cases hnew
        obtain rfl := eq_of_pending (Followed.run hr) r hi hb
        rw [List.append_nil]
        exact Claims.run hr j b ⟨_, hi, rfl⟩
      | cons _ _ => simp at hnew

/-- **One sequence after the other.** When two handlers have commanded one box, the sequence of the
first ended before the box was granted to the second, and the first never commands a box again. -/
def Sequential (history : List (Happened Call.Res JsString (List JsString))) : Prop :=
  ∀ pre mid post i j x y b, history = pre ++ .called i x :: (mid ++ .called j y :: post) → i ≠ j →
    x.1.isolateBox = some b → y.1.isolateBox = some b →
    ∃ mid₁ mid₂, mid = mid₁ ++ .granted j b :: mid₂ ∧
      (∃ z, .called i z ∈ .called i x :: mid₁ ∧ EndsBoxUse b z) ∧
      ∀ z, .called i z ∈ mid₂ ++ .called j y :: post → z.1.isolateBox = none

theorem Sequential.run
    (hrun : ManagerRun (judgeDeployment workers assigned) E other group world l s) :
    Sequential s.history := by
  intro pre mid post i j x y b hh hij hx hy
  obtain ⟨pre₁, mid₂, hsplit, hafter, hbefore⟩ :=
    Serialized.run hrun (pre ++ .called i x :: mid) post j y b (by simp [hh]) hy
  rcases List.eq_append_cons_of_append hsplit with ⟨post', -, rfl⟩ | ⟨pre', hmid, rfl⟩
  · exact absurd (hafter i x (by simp) hx) hij
  cases pre' with
  | nil => cases hmid
  | cons e mid₁ =>
    obtain ⟨rfl, rfl⟩ := List.cons.inj hmid
    have hended := hbefore i x (by simp) hx
    have hpart : callsIn i (pre ++ .called i x :: mid₁)
        = callsIn i pre ++ callsIn i (.called i x :: mid₁) := callsIn_append
    refine ⟨mid₁, mid₂, rfl, ?_, fun z hz ↦ ?_⟩
    · -- before `x` the sequence had not ended, so it ended with `x` or later
      rw [hpart, Monitor.scan_append] at hended
      obtain ⟨use, -, hscan⟩ := Option.bind_eq_some_iff.mp hended
      have hne : use ≠ .ended := by
        rintro rfl
        have hnone := (scan_boxMonitor_ended hscan).2 x (mem_callsIn_iff.mpr List.mem_cons_self)
        rw [hx] at hnone
        cases hnone
      obtain ⟨z, hz, hend⟩ := exists_endsBoxUse hne hscan
      exact ⟨z, mem_callsIn_iff.mp hz, hend⟩
    · -- the whole of the calls is accepted, and after the end nothing is
      have hcalls : s.calls i = callsIn i (pre ++ .called i x :: mid₁)
          ++ callsIn i (.granted j b :: (mid₂ ++ .called j y :: post)) := by
        rw [← callsIn_append]
        exact congrArg (callsIn i) (by simp [hh])
      obtain ⟨b', use, hscan, -⟩ := exists_scan_calls (Followed.run hrun) i
      have hmem : x ∈ s.calls i := by
        rw [hcalls]
        exact List.mem_append_left _ (mem_callsIn_iff.mpr (by simp))
      obtain rfl : b = b' := isolateBox_of_scan_boxMonitor hscan x hmem b hx
      rw [hcalls, Monitor.scan_append, hended, Option.bind_some] at hscan
      exact (scan_boxMonitor_ended hscan).2 z
        (mem_callsIn_iff.mpr (List.mem_cons_of_mem _ hz))

/-- **Boxes are used by one submission at a time.** In every state of every run, the messages
between grant and release hold distinct boxes, all of them below the number of workers; at most that
many submissions are judged; the `isolate` sequences on one box come one after the other; and while
the topic is marked as paused no box is free. -/
theorem boxes_exclusive
    (hrun : ManagerRun (judgeDeployment workers assigned) E other group world l s) :
    (∀ i j b, s.Holds i b → s.Holds j b → i = j) ∧ (∀ i b, s.Holds i b → b < workers) ∧
    (∀ js : Finset ℕ, (∀ i ∈ js, s.Judges i) → js.card ≤ workers) ∧
    Sequential s.history ∧ (s.isPaused = true → s.semaphore.available = 0) := by
  have hcap := Capacity.run hrun
  refine ⟨fun i j b ↦ hcap.eq_of_holds, fun i b ↦ hcap.lt_of_holds, fun js hjs ↦ ?_,
    Sequential.run hrun, FullWhilePaused.run hrun⟩
  refine hcap.card_le fun i hi ↦ ?_
  obtain ⟨m, b, x, hx⟩ := hjs i hi
  exact ⟨b, _, hx, rfl⟩

/-- One box and two messages: both initialise the box, the second after the first is done. -/
theorem boxes_exclusive_recorded : ∃ l s,
    ManagerRun (judgeDeployment 1 [0]) anyAnswer (fun _ _ ↦ False) .fromStart () l s ∧
    (∀ i < 2, ∃ r, .called i ⟨.exec (.init 0), r⟩ ∈ s.history) ∧
    (∀ i j b, s.Holds i b → s.Holds j b → i = j) ∧ (∀ i b, s.Holds i b → b < 1) ∧
    (∀ js : Finset ℕ, (∀ i ∈ js, s.Judges i) → js.card ≤ 1) ∧
    Sequential s.history ∧ (s.isPaused = true → s.semaphore.available = 0) := by
  have h₀ : ManagerRun (judgeDeployment 1 [0]) anyAnswer (fun _ _ ↦ False) .fromStart () [] _ :=
    .nil
  have h₁ := h₀.snoc (.deliver (m := ⟨0, 0, some (.ok (some uncompilable))⟩) (by decide))
  have h₂ := h₁.snoc (.deliver (m := ⟨0, 1, some (.ok (some uncompilable))⟩) (by decide))
  have h₃ := h₂.snoc (.start (i := 0) rfl)
  obtain ⟨l₄, h₄, -⟩ := exists_run_answered (i := 0) eval_recordedTrace h₃ rfl (steps_anyAnswer _)
  have h₅ := h₄.snoc (.finish (i := 0) rfl)
  have h₆ := h₅.snoc (.start (i := 1) rfl)
  obtain ⟨l₇, h₇, -⟩ := exists_run_answered (i := 1) eval_recordedTrace h₆ rfl (steps_anyAnswer _)
  refine ⟨_, _, h₇, fun i hi ↦ ⟨.error "Error: Command failed", ?_⟩, boxes_exclusive h₇⟩
  interval_cases i
  · exact List.mem_of_getElem? (i := 3) rfl
  · exact List.mem_of_getElem? (i := 16) rfl

end Sequences

end ManagerState

end JudgeIt
