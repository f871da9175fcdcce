import JudgeIt.Worker.Commits

/-!
# Conservation of boxes and offsets

A handler that gets a box should give it back once and complete its offset once, and an idle
manager should have every box free and nothing in flight. All of this holds until the first message
without a value is processed: `processMessage` returns on it before the `try` block, past the
`finally` that releases and completes. `conserved_iff` reduces the whole law to the absence of such
a handler, and the run theorem says exactly which runs keep it.
-/

namespace JudgeIt

open Async Transition

variable {Op : Type} {Res : Op → Type} {ε P V ω : Type}

/-- `processMessage` has settled. -/
def Phase.Done : Phase Res ε V → Prop
  | .settled | .skipped _ => True
  | .waiting | .granted _ | .judging .. | .committing => False

namespace ManagerState

/-- **The conservation law.** -/
structure Conserved (d : Deployment Res ε P V) (s : ManagerState Res ε P V ω) : Prop where
  /-- Free boxes and boxes between grant and release add up to `MAX_WORKERS`. -/
  boxes : s.semaphore.available + s.held.length = d.workers
  /-- Past `processMessage`, one box was granted, the same box was released once, and the offset
  was completed once. -/
  once : ∀ (i : ℕ) h, s.handlers[i]? = some h → h.phase.Done →
    ∃ b, s.grants i = [b] ∧ s.releases i = [b] ∧ s.completions i = 1
  /-- With nothing being processed every box is free and nothing is in flight. -/
  idle : (∀ h ∈ s.handlers, h.phase.Done) →
    s.semaphore.available = d.workers ∧ ∀ p, s.offsetTracker.pending p = ∅

/-- No handler has returned early. -/
def NoSkip (s : ManagerState Res ε P V ω) : Prop :=
  ∀ (i : ℕ) m b, s.handlers[i]? ≠ some ⟨m, .skipped b⟩

/-- The action does not start processing a message without a value. -/
def StartsValued (s : ManagerState Res ε P V ω) : Action Res ε P ω → Prop
  | .start i => ∀ m b, s.handlers[i]? = some ⟨m, .granted b⟩ → m.value ≠ none
  | _ => True

variable {d : Deployment Res ε P V} {s s' : ManagerState Res ε P V ω} {i b : ℕ}
  {m : Message ε P} {phase : Phase Res ε V} {E : Env ω Res} {other : ω → ω → Prop}
  {a : Action Res ε P ω} {group : GroupOffsets} {world : ω}
  {l : List (ManagerState Res ε P V ω × Action Res ε P ω)}

/-- Given where the boxes and offsets are, only an early return can break the law. -/
theorem conserved_iff (hcap : Capacity d s) (hledger : Ledger s) (htracked : Tracked s) :
    Conserved d s ↔ NoSkip s := by
  constructor
  · -- an early return is done without having released its box
    intro h i m b hi
    obtain ⟨b', -, hr, -⟩ := h.once i _ hi trivial
    have hacc := hledger i
    rw [phase?_eq hi] at hacc
    rw [hacc.2.1] at hr
    simp at hr
  · intro hskip
    have hdone : ∀ (i : ℕ) h, s.handlers[i]? = some h → h.phase.Done → h.phase = .settled := by
      intro i h hi hd
      obtain ⟨m, phase⟩ := h
      cases phase with
      | settled => rfl
      | skipped b => exact absurd hi (hskip i m b)
      | waiting => cases hd
      | granted b => cases hd
      | judging b p => cases hd
      | committing => cases hd
    have honce : ∀ (i : ℕ) h, s.handlers[i]? = some h → h.phase.Done →
        ∃ b, s.grants i = [b] ∧ s.releases i = [b] ∧ s.completions i = 1 := by
      intro i h hi hd
      have hacc := hledger i
      rw [phase?_eq hi, hdone i h hi hd] at hacc
      exact hacc
    refine ⟨hcap.available_add_length_held, honce, fun hidle ↦ ⟨?_, fun p ↦ ?_⟩⟩
    -- with every handler settled, no box is held and no offset is in flight
    · have hnil : s.held = [] := by
        rw [List.eq_nil_iff_forall_not_mem]
        intro b hb
        obtain ⟨i, h, hi, hbox⟩ := mem_held_iff.mp hb
        rw [hdone i h hi (hidle h (List.mem_of_getElem? hi))] at hbox
        cases hbox
      have hsum := hcap.available_add_length_held
      rwa [hnil] at hsum
    · rw [Finset.eq_empty_iff_forall_notMem]
      intro o ho
      obtain ⟨i, m, hm, -, -, hz⟩ := htracked p o ho
      obtain ⟨h, hi, -⟩ := Option.map_eq_some_iff.mp hm
      obtain ⟨b, -, -, hc⟩ := honce i h hi (hidle h (List.mem_of_getElem? hi))
      omega

/-! ## Who returns early -/

theorem NoSkip.setPhase (h : NoSkip s) (hphase : ∀ b, phase ≠ .skipped b) :
    NoSkip (s.setPhase i phase) := by
  intro j m b hj
  rw [getElem?_setPhase] at hj
  split at hj
  · obtain ⟨h', -, hh⟩ := Option.map_eq_some_iff.mp hj
    cases hh
    exact hphase b rfl
  · exact h j m b hj

theorem NoSkip.append (h : NoSkip s) (hh : s'.handlers = s.handlers ++ [⟨m, phase⟩])
    (hphase : ∀ b, phase ≠ .skipped b) : NoSkip s' := by
  intro j m' b hj
  rw [hh] at hj
  rcases List.mem_append.mp (List.mem_of_getElem? hj) with hmem | hmem
  · obtain ⟨k, hk⟩ := List.mem_iff_getElem?.mp hmem
    exact h k m' b hk
  · cases List.mem_singleton.mp hmem
    exact hphase b rfl

theorem NoSkip.finallyBlock (h : NoSkip s) : NoSkip (s.finallyBlock i m b) := by
  have hafter : ∀ b, s.phaseAfter m ≠ .skipped b := by
    intro b
    rcases s.phaseAfter_eq m with hp | hp <;> rw [hp] <;> simp
  rcases s.finallyBlock_cases i m b with ⟨j, -, -, hh, -⟩ | ⟨-, -, -, hh, -⟩
  · intro k m' b'
    rw [hh]
    have hgrant : NoSkip (s.setPhase j (.granted b)) := h.setPhase (by simp)
    exact hgrant.setPhase hafter k m' b'
  · intro k m' b'
    rw [hh]
    exact h.setPhase hafter k m' b'

/-- A step adds an early return exactly when it starts a message without a value. -/
theorem noSkip_step_iff (h : NoSkip s) (hs : Step d E other s a s') :
    NoSkip s' ↔ StartsValued s a := by
  have htrue : ∀ {q : Prop}, q → (q ↔ True) := fun hq ↦ ⟨fun _ ↦ trivial, fun _ ↦ hq⟩
  cases hs with
  | @deliver m _ =>
    refine htrue ?_
    rcases s.eachMessage_cases d m with ⟨b, -, -, hh, -⟩ | ⟨-, -, -, hh, -⟩
    · exact h.append hh (by simp)
    · exact h.append hh (by simp)
  | @start i m b hi =>
    have hvalued : StartsValued s (.start i : Action Res ε P ω) ↔ m.value ≠ none := by
      refine ⟨fun hv ↦ hv m b hi, fun hv m' b' hi' ↦ ?_⟩
      rw [hi] at hi'
      cases hi'
      exact hv
    rw [hvalued, processMessage]
    split
    · next hv =>
      refine ⟨fun hskip ↦ absurd (getElem?_setPhase_self hi _) (hskip i m b), fun hne ↦ ?_⟩
      exact absurd hv hne
    · next hv => exact ⟨fun _ ↦ by simp [hv], fun _ ↦ h.finallyBlock⟩
    · next hv => exact ⟨fun _ ↦ by simp [hv], fun _ ↦ h.setPhase (by simp)⟩
  | @respond i m b op k r world hi _ =>
    exact htrue (NoSkip.setPhase (s := { s with world := world }) h (by simp))
  | @finish i m b out hi =>
    exact htrue (NoSkip.finallyBlock (s := s.record (.judged i out)) h)
  | arrive _ => exact htrue h
  | settle hi => exact htrue (h.setPhase (by simp))
  | interfere _ => exact htrue h

/-- A run keeps the conservation law in all its states exactly when it never starts processing a
message without a value. -/
theorem always_conserved_iff (hrun : ManagerRun d E other group world l s) :
    Always (Conserved d) l s ↔ Meets StartsValued l := by
  refine hrun.always_iff_meets (I := fun s ↦ (Capacity d s ∧ Ledger s) ∧ Tracked s)
    ⟨⟨.init d group world, .init d group world⟩, .init d group world⟩ ?_ ?_ ?_
  · refine (conserved_iff (.init d group world) (.init d group world) (.init d group world)).mpr ?_
    simp [NoSkip, ManagerState.init]
  · exact fun _ _ _ h hs ↦ ⟨⟨h.1.1.step hs, h.1.2.step h.1.1 hs⟩, h.2.step h.1.2 hs⟩
  · intro s a s' h hP hs
    have hskip := (conserved_iff h.1.1 h.1.2 h.2).mp hP
    rw [conserved_iff (h.1.1.step hs) (h.1.2.step h.1.1 hs) (h.2.step h.1.2 hs),
      noSkip_step_iff hskip hs]

/-- A message that is no JSON is no problem: its handler finishes, and has let go of its box and of
its offset. -/
theorem always_conserved_iff_garbled : ∃ l s,
    ManagerRun (judgeDeployment 1 [0]) anyAnswer (fun _ _ ↦ False) .fromStart () l s ∧
    s.handlers = [⟨garbled 0 0, .settled⟩] ∧ s.completions 0 = 1 ∧
    Always (Conserved (judgeDeployment 1 [0])) l s := by
  obtain ⟨l, s, hrun, hsettled, hc, hl⟩ : ∃ l s,
      ManagerRun (judgeDeployment 1 [0]) anyAnswer (fun _ _ ↦ False) .fromStart () l s ∧
      s.handlers = [⟨garbled 0 0, .settled⟩] ∧ s.completions 0 = 1 ∧ Meets StartsValued l := by
    refine ⟨_, _, ((Run.nil.snoc (.deliver (m := garbled 0 0) (by decide))).snoc
      (.start (i := 0) rfl)).snoc (.settle (i := 0) rfl), rfl, rfl, ?_⟩
    simp only [meets_snoc]
    refine ⟨⟨⟨by simp [Meets], trivial⟩, fun m b hi ↦ ?_⟩, trivial⟩
    cases hi
    exact Option.some_ne_none _
  exact ⟨l, s, hrun, hsettled, hc, (always_conserved_iff hrun).mpr hl⟩

/-- One message without a value, and the only box is never free again and the offset stays in
flight. -/
theorem empty_message_unconserved : ∃ l s,
    ManagerRun (judgeDeployment 1 [0]) anyAnswer (fun _ _ ↦ False) .fromStart () l s ∧
    (∀ h ∈ s.handlers, h.phase.Done) ∧ s.semaphore.available = 0 ∧
    s.offsetTracker.pending 0 = {0} ∧ s.grants 0 = [0] ∧ s.releases 0 = [] ∧
    s.completions 0 = 0 ∧ ¬Conserved (judgeDeployment 1 [0]) s := by
  refine ⟨_, _, (Run.nil.snoc (.deliver (m := ⟨0, 0, none⟩) (by decide))).snoc
    (.start (i := 0) rfl), ?_, rfl, rfl, rfl, rfl, rfl, fun h ↦ ?_⟩
  · exact List.forall_mem_singleton.mpr trivial
  · obtain ⟨b, -, hr, -⟩ := h.once 0 _ rfl trivial
    cases hr

end ManagerState

end JudgeIt
