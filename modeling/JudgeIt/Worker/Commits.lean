import JudgeIt.Worker.Deployment
import JudgeIt.Worker.Ledger

/-!
# What may be committed

The offsets in flight are offsets of delivered messages whose handlers have not completed. When
Kafka delivers each partition in increasing order the converse holds too, and then every position
that was ever requested, and hence every position stored at the broker, is *safe* in the sense of
`Watermark.Safe`: at or below everything in flight, and not beyond the next offset to be fetched.

That `track` runs before the first `await` is what the argument needs: a message waiting for a box
is already in flight. Commit requests are issued with a position safe at that moment, and safety
only gets easier to keep, so it does not matter when, in what order or how often they arrive.
-/

namespace JudgeIt

open Async Transition Watermark

variable {Op : Type} {Res : Op → Type} {ε P V ω : Type}

namespace ManagerState

variable {d : Deployment Res ε P V} {s s' : ManagerState Res ε P V ω} {i j b : ℕ}
  {m : Message ε P} {phase phase' : Phase Res ε V} {E : Env ω Res} {other : ω → ω → Prop}
  {a : Action Res ε P ω} {group : GroupOffsets} {world : ω}
  {l : List (ManagerState Res ε P V ω × Action Res ε P ω)}

/-! ## Messages never change -/

/-- The message of handler `i`, if it exists. -/
def message? (s : ManagerState Res ε P V ω) (i : ℕ) : Option (Message ε P) :=
  s.handlers[i]?.map Handler.message

theorem message?_eq {h : Handler Res ε P V} (hi : s.handlers[i]? = some h) :
    s.message? i = some h.message := by
  rw [message?, hi]
  rfl

theorem message?_setPhase (s : ManagerState Res ε P V ω) (i : ℕ) (phase : Phase Res ε V) (j : ℕ) :
    (s.setPhase i phase).message? j = s.message? j := by
  rw [message?, message?, getElem?_setPhase]
  split <;> simp [Function.comp_def]

theorem message?_finallyBlock (s : ManagerState Res ε P V ω) (i : ℕ) (m : Message ε P) (b j : ℕ) :
    (s.finallyBlock i m b).message? j = s.message? j := by
  rcases s.finallyBlock_cases i m b with ⟨k, -, -, hh, -⟩ | ⟨-, -, -, hh, -⟩
  · rw [message?, hh, ← message?, message?_setPhase, message?_setPhase]
  · rw [message?, hh, ← message?, message?_setPhase]

theorem message?_eachMessage (s : ManagerState Res ε P V ω) (d : Deployment Res ε P V)
    (m : Message ε P) (j : ℕ) : (s.eachMessage d m).message? j
      = if j = s.handlers.length then some m else s.message? j := by
  obtain ⟨phase, hh⟩ : ∃ phase, (s.eachMessage d m).handlers = s.handlers ++ [⟨m, phase⟩] := by
    rcases s.eachMessage_cases d m with ⟨b, -, -, hh, -⟩ | ⟨-, -, -, hh, -⟩
    · exact ⟨_, hh⟩
    · exact ⟨_, hh⟩
  rw [message?, hh, List.getElem?_append_singleton, message?]
  split <;> rfl

theorem message?_length (s : ManagerState Res ε P V ω) : s.message? s.handlers.length = none := by
  simp [message?]

theorem message?_of_eachMessage {m' : Message ε P} (hi : s.message? i = some m') :
    (s.eachMessage d m).message? i = some m' := by
  rw [message?_eachMessage, if_neg, hi]
  rintro rfl
  rw [message?_length] at hi
  cases hi

/-! ## Completions -/

theorem completions_finallyBlock (s : ManagerState Res ε P V ω) (i : ℕ) (m : Message ε P)
    (b j : ℕ) : (s.finallyBlock i m b).completions j
      = s.completions j + if j = i then 1 else 0 := by
  rcases s.finallyBlock_cases i m b with ⟨k, -, -, -, hhist⟩ | ⟨-, -, -, -, hhist⟩ <;>
  · rw [completions_append hhist]
    by_cases hji : j = i
    · subst hji
      simp [List.countP_filter, Happened.isCompleted, Happened.handler]
    · simp [List.countP_filter, Happened.isCompleted, Happened.handler,
        Ne.symm hji, hji]

theorem completions_eachMessage (s : ManagerState Res ε P V ω) (d : Deployment Res ε P V)
    (m : Message ε P) (j : ℕ) : (s.eachMessage d m).completions j = s.completions j := by
  rcases s.eachMessage_cases d m with ⟨b, -, -, -, hhist⟩ | ⟨-, -, -, -, hhist⟩
  · rw [completions_append hhist]
    simp [List.countP_filter, Happened.isCompleted]
  · rw [completions, recordOf, hhist, ← recordOf, completions]

/-! ## What a step does to the tracked offsets

Deliveries and `finally` blocks are the only stretches that touch the tracker, the completions or
the issued commits; `step_tracking` says so once. -/

/-- The step neither delivers a message nor runs a `finally` block. -/
structure Untracked (s s' : ManagerState Res ε P V ω) : Prop where
  message : ∀ i, s'.message? i = s.message? i
  completions : ∀ i, s'.completions i = s.completions i
  offsetTracker : s'.offsetTracker = s.offsetTracker
  fetchPosition : s'.consumer.fetchPosition = s.consumer.fetchPosition
  commits : s'.consumer.commits = s.consumer.commits

theorem untracked_setPhase (s : ManagerState Res ε P V ω) (i : ℕ) (phase : Phase Res ε V) :
    Untracked s (s.setPhase i phase) :=
  ⟨message?_setPhase s i phase, fun _ ↦ rfl, rfl, rfl, rfl⟩

/-- **The three kinds of steps**, as far as offsets are concerned. -/
theorem step_tracking (hs : Step d E other s a s') :
    (∃ m, a = .deliver m ∧ m.partition ∈ d.assigned ∧ s' = s.eachMessage d m) ∨
    (∃ s₁ i m phase b, s.finallyOf a = some m ∧ Untracked s s₁ ∧ s₁.consumer = s.consumer ∧
      s₁.isPaused = s.isPaused ∧ s.handlers[i]? = some ⟨m, phase⟩ ∧ s' = s₁.finallyBlock i m b) ∨
    (s.finallyOf a = none ∧ Untracked s s' ∧ s'.semaphore = s.semaphore ∧
      s'.isPaused = s.isPaused ∧ s'.consumer.paused = s.consumer.paused ∧
      (s'.consumer.committed = s.consumer.committed ∨
        ∃ x ∈ s.consumer.commits, s'.consumer = s.consumer.arrived x.1 x.2)) := by
  cases hs with
  | deliver hp => exact Or.inl ⟨_, rfl, hp, rfl⟩
  | @start i m b hi =>
    rw [processMessage]
    split
    · next hv =>
      exact Or.inr (Or.inr ⟨by simp [finallyOf, hi, hv], untracked_setPhase _ _ _, rfl, rfl, rfl,
        Or.inl rfl⟩)
    · next hv =>
      exact Or.inr (Or.inl ⟨s, i, m, _, b, by simp [finallyOf, hi, hv],
        ⟨fun _ ↦ rfl, fun _ ↦ rfl, rfl, rfl, rfl⟩, rfl, rfl, hi, rfl⟩)
    · next hv =>
      exact Or.inr (Or.inr ⟨by simp [finallyOf, hi, hv], untracked_setPhase _ _ _, rfl, rfl, rfl,
        Or.inl rfl⟩)
  | @respond i m b op k r world hi _ =>
    refine Or.inr (Or.inr ⟨rfl, ⟨fun j ↦ ?_, fun j ↦ ?_, rfl, rfl, rfl⟩, rfl, rfl, rfl,
      Or.inl rfl⟩)
    · exact message?_setPhase { s with world := world } i _ j
    · have hhist : (({ s with world := world }.setPhase i (.judging b (k r))).record
          (.called i ⟨op, r⟩)).history = s.history ++ [.called i ⟨op, r⟩] := rfl
      rw [completions_append hhist]
      simp [List.countP_filter, Happened.isCompleted]
  | @finish i m b out hi =>
    refine Or.inr (Or.inl ⟨s.record (.judged i out), i, m, _, b, by simp [finallyOf, hi],
      ⟨fun _ ↦ rfl, fun j ↦ ?_, rfl, rfl, rfl⟩, rfl, rfl, hi, rfl⟩)
    have hhist : (s.record (.judged i out)).history = s.history ++ [.judged i out] := rfl
    rw [completions_append hhist]
    simp [List.countP_filter, Happened.isCompleted]
  | @arrive n p c hn =>
    exact Or.inr (Or.inr ⟨rfl, ⟨fun _ ↦ rfl, fun _ ↦ rfl, rfl, rfl, rfl⟩, rfl, rfl, rfl,
      Or.inr ⟨(p, c), List.mem_of_getElem? hn, rfl⟩⟩)
  | settle hi =>
    exact Or.inr (Or.inr ⟨rfl, untracked_setPhase _ _ _, rfl, rfl, rfl, Or.inl rfl⟩)
  | interfere _ =>
    exact Or.inr (Or.inr ⟨rfl, ⟨fun _ ↦ rfl, fun _ ↦ rfl, rfl, rfl, rfl⟩, rfl, rfl, rfl,
      Or.inl rfl⟩)

theorem message?_of_step (hs : Step d E other s a s') (hi : s.message? i = some m) :
    s'.message? i = some m := by
  rcases step_tracking hs with ⟨m', -, -, rfl⟩ | ⟨s₁, j, m', phase, b, -, hu, -, -, -, rfl⟩ |
    ⟨-, hu, -⟩
  · exact message?_of_eachMessage hi
  · rw [message?_finallyBlock, hu.message, hi]
  · rw [hu.message, hi]

/-! ## The offsets in flight -/

theorem pending_eachMessage (s : ManagerState Res ε P V ω) (d : Deployment Res ε P V)
    (m : Message ε P) (p : ℕ) : (s.eachMessage d m).offsetTracker.pending p
      = if p = m.partition then insert m.offset (s.offsetTracker.pending m.partition)
        else s.offsetTracker.pending p := by
  rw [eachMessage_offsetTracker, OffsetTrackerService.pending_track]

theorem pending_finallyBlock (s : ManagerState Res ε P V ω) (i : ℕ) (m : Message ε P) (b p : ℕ) :
    (s.finallyBlock i m b).offsetTracker.pending p
      = if p = m.partition then (s.offsetTracker.pending m.partition).erase m.offset
        else s.offsetTracker.pending p := by
  rw [finallyBlock_offsetTracker, OffsetTrackerService.pending_complete]

theorem pending_finallyBlock_subset (s : ManagerState Res ε P V ω) (i : ℕ) (m : Message ε P)
    (b p : ℕ) : (s.finallyBlock i m b).offsetTracker.pending p ⊆ s.offsetTracker.pending p := by
  rw [finallyBlock_offsetTracker]
  exact OffsetTrackerService.pending_complete_subset s.offsetTracker m.partition m.offset p

/-! ## Tracked offsets belong to uncompleted handlers -/

/-- Every offset in flight is that of a delivered message not yet completed. -/
def Tracked (s : ManagerState Res ε P V ω) : Prop :=
  ∀ p, ∀ o ∈ s.offsetTracker.pending p, ∃ i m, s.message? i = some m ∧ m.partition = p ∧
    m.offset = o ∧ s.completions i = 0

theorem Tracked.init (d : Deployment Res ε P V) (group : GroupOffsets) (world : ω) :
    Tracked (ManagerState.init d group world) := by
  intro p o ho
  simp [ManagerState.init] at ho

theorem Tracked.congr (h : Tracked s) (hu : Untracked s s') : Tracked s' := by
  intro p o ho
  rw [hu.offsetTracker] at ho
  obtain ⟨i, m, hm, hp, ho', hc⟩ := h p o ho
  exact ⟨i, m, (hu.message i).trans hm, hp, ho', (hu.completions i).trans hc⟩

theorem Tracked.eachMessage (h : Tracked s) (hledger : Ledger s) (m : Message ε P) :
    Tracked (s.eachMessage d m) := by
  intro p o ho
  rw [pending_eachMessage] at ho
  have hold : o ∈ s.offsetTracker.pending p → ∃ i m', (s.eachMessage d m).message? i = some m' ∧
      m'.partition = p ∧ m'.offset = o ∧ (s.eachMessage d m).completions i = 0 := by
    intro ho
    obtain ⟨i, m', hm', hp, ho', hc⟩ := h p o ho
    exact ⟨i, m', message?_of_eachMessage hm', hp, ho', (completions_eachMessage s d m i).trans hc⟩
  split at ho
  · next hp =>
    subst hp
    rcases Finset.mem_insert.mp ho with rfl | ho
    · refine ⟨s.handlers.length, m, ?_, rfl, rfl, ?_⟩
      · rw [message?_eachMessage, if_pos rfl]
      · have hacc := hledger s.handlers.length
        rw [show s.phase? s.handlers.length = none by simp [phase?]] at hacc
        exact (completions_eachMessage s d m _).trans hacc.2.2
    · exact hold ho
  · exact hold ho

theorem Tracked.finallyBlock (h : Tracked s) (hi : s.message? i = some m) :
    Tracked (s.finallyBlock i m b) := by
  intro p o ho
  rw [pending_finallyBlock] at ho
  have hold : o ∈ s.offsetTracker.pending p ∧ ¬(m.partition = p ∧ m.offset = o) := by
    split at ho
    · next hp =>
      subst hp
      obtain ⟨hne, ho⟩ := Finset.mem_erase.mp ho
      exact ⟨ho, fun ⟨_, h⟩ ↦ hne h.symm⟩
    · next hp => exact ⟨ho, fun ⟨h, _⟩ ↦ hp h.symm⟩
  obtain ⟨j, m', hm', hp, ho', hc⟩ := h p o hold.1
  refine ⟨j, m', (message?_finallyBlock s i m b j).trans hm', hp, ho', ?_⟩
  rw [completions_finallyBlock, hc, if_neg]
  rintro rfl
  rw [hi] at hm'
  cases hm'
  exact hold.2 ⟨hp, ho'⟩

theorem Tracked.step (h : Tracked s) (hledger : Ledger s) (hs : Step d E other s a s') :
    Tracked s' := by
  rcases step_tracking hs with ⟨m, -, -, rfl⟩ |
    ⟨s₁, i, m, phase, b, -, hu, -, -, hi, rfl⟩ | ⟨-, hu, -⟩
  · exact h.eachMessage hledger m
  · exact (h.congr hu).finallyBlock ((hu.message i).trans (message?_eq hi))
  · exact h.congr hu

theorem Tracked.run (hrun : ManagerRun d E other group world l s) : Tracked s :=
  (hrun.invariant' (I := fun s ↦ (Capacity d s ∧ Ledger s) ∧ Tracked s)
    ⟨⟨.init d group world, .init d group world⟩, init d group world⟩
    fun _ _ _ h hs ↦ ⟨⟨h.1.1.step hs, h.1.2.step h.1.1 hs⟩, h.2.step h.1.2 hs⟩).2

/-! ## In-order delivery makes every position safe -/

/-- Kafka's order: a delivered offset is at or beyond the partition's fetch position. -/
def InOrder (s : ManagerState Res ε P V ω) : Action Res ε P ω → Prop
  | .deliver m => s.consumer.fetchPosition m.partition ≤ m.offset
  | _ => True

/-- A position that may be committed for a partition. -/
abbrev SafeFor (s : ManagerState Res ε P V ω) (p : ℕ) (c : ℤ) : Prop :=
  Safe (s.offsetTracker.pending p : Set ℤ) (s.consumer.fetchPosition p) c

/-- A delivery in order leaves every safe position safe. -/
theorem SafeFor.eachMessage {p : ℕ} {c : ℤ} (h : s.SafeFor p c)
    (ho : s.consumer.fetchPosition m.partition ≤ m.offset) : (s.eachMessage d m).SafeFor p c := by
  rw [SafeFor, eachMessage_fetchPosition, Function.update_apply, pending_eachMessage]
  split
  · next hp =>
    subst hp
    rw [Finset.coe_insert]
    exact h.arrive ho (by omega)
  · exact h

/-- So does a `finally` block, which takes an offset out of flight. -/
theorem SafeFor.finallyBlock {p : ℕ} {c : ℤ} (h : s.SafeFor p c) :
    (s.finallyBlock i m b).SafeFor p c := by
  rw [SafeFor, finallyBlock_consumer]
  exact h.anti (Finset.coe_subset.mpr (pending_finallyBlock_subset s i m b p))

/-- **The commit invariant**, under in-order delivery. -/
structure Commits (s : ManagerState Res ε P V ω) : Prop where
  /-- Delivered offsets are below the fetch position. -/
  offset_lt : ∀ i m, s.message? i = some m → m.offset < s.consumer.fetchPosition m.partition
  /-- A partition delivers an offset once. -/
  distinct : ∀ i j m m', s.message? i = some m → s.message? j = some m' →
    m.partition = m'.partition → m.offset = m'.offset → i = j
  /-- A message not yet completed is in flight. -/
  in_flight : ∀ i m, s.message? i = some m → s.completions i = 0 →
    m.offset ∈ s.offsetTracker.pending m.partition
  /-- Every requested position is safe. -/
  commits : ∀ x ∈ s.consumer.commits, s.SafeFor x.1 x.2
  /-- The broker's position is safe. -/
  committed : ∀ p c, s.consumer.committed p = some c → s.SafeFor p c

namespace Commits

theorem init (d : Deployment Res ε P V) (group : GroupOffsets) (world : ω) :
    Commits (ManagerState.init d group world) where
  offset_lt := by simp [ManagerState.init, message?]
  distinct := by simp [ManagerState.init, message?]
  in_flight := by simp [ManagerState.init, message?]
  commits := by simp [ManagerState.init]
  committed := fun _ _ hc ↦ safe_of_eq_empty (by simp [ManagerState.init]) (group.fetch_eq hc).ge

theorem congr (h : Commits s) (hu : Untracked s s')
    (hc : s'.consumer.committed = s.consumer.committed ∨
      ∃ x ∈ s.consumer.commits, s'.consumer = s.consumer.arrived x.1 x.2) : Commits s' := by
  have hsafe : ∀ p c, s.SafeFor p c → s'.SafeFor p c := by
    intro p c hpc
    rw [SafeFor, hu.offsetTracker, hu.fetchPosition]
    exact hpc
  refine ⟨fun i m hm ↦ ?_, fun i j m m' hm hm' ↦ ?_, fun i m hm hz ↦ ?_, fun x hx ↦ ?_,
    fun p c hpc ↦ ?_⟩
  · rw [hu.fetchPosition]
    exact h.offset_lt i m ((hu.message i).symm.trans hm)
  · exact h.distinct i j m m' ((hu.message i).symm.trans hm) ((hu.message j).symm.trans hm')
  · rw [hu.offsetTracker]
    exact h.in_flight i m ((hu.message i).symm.trans hm) ((hu.completions i).symm.trans hz)
  · rw [hu.commits] at hx
    exact hsafe _ _ (h.commits x hx)
  · rcases hc with hc | ⟨x, hx, hcons⟩
    · rw [hc] at hpc
      exact hsafe p c (h.committed p c hpc)
    · rw [hcons, Consumer.arrived_committed] at hpc
      split at hpc
      · next hp =>
        cases hpc
        exact hp ▸ hsafe _ _ (h.commits x hx)
      · exact hsafe p c (h.committed p c hpc)

/-- Delivered in order, a message is beyond those of its partition before it. -/
theorem offset_lt_of_inOrder (h : Commits s)
    (ho : s.consumer.fetchPosition m.partition ≤ m.offset) {m' : Message ε P}
    (hm' : s.message? i = some m') (hp : m'.partition = m.partition) : m'.offset < m.offset := by
  have hlt := h.offset_lt i m' hm'
  rw [hp] at hlt
  exact hlt.trans_le ho

theorem eachMessage (h : Commits s) {m : Message ε P}
    (ho : s.consumer.fetchPosition m.partition ≤ m.offset) : Commits (s.eachMessage d m) := by
  -- A message of the new state is the one delivered or an old one.
  have hmsg : ∀ {i m'}, (s.eachMessage d m).message? i = some m' →
      (i = s.handlers.length ∧ m' = m) ∨ s.message? i = some m' := by
    intro i m' hm'
    rw [message?_eachMessage] at hm'
    split at hm'
    · next hi => cases hm'; exact Or.inl ⟨hi, rfl⟩
    · exact Or.inr hm'
  refine ⟨fun i m' hm' ↦ ?_, fun i j m₁ m₂ h₁ h₂ hp hoff ↦ ?_, fun i m' hm' hz ↦ ?_,
    fun x hx ↦ ?_, fun p c hpc ↦ ?_⟩
  · rw [eachMessage_fetchPosition, Function.update_apply]
    rcases hmsg hm' with ⟨-, rfl⟩ | hm'
    · rw [if_pos rfl]
      omega
    · split
      · next hp =>
        have := h.offset_lt_of_inOrder ho hm' hp
        omega
      · exact h.offset_lt i m' hm'
  · rcases hmsg h₁ with ⟨hi, rfl⟩ | h₁' <;> rcases hmsg h₂ with ⟨hj, rfl⟩ | h₂'
    · rw [hi, hj]
    · have := h.offset_lt_of_inOrder ho h₂' hp.symm
      omega
    · have := h.offset_lt_of_inOrder ho h₁' hp
      omega
    · exact h.distinct i j m₁ m₂ h₁' h₂' hp hoff
  · rw [pending_eachMessage]
    rw [completions_eachMessage] at hz
    rcases hmsg hm' with ⟨-, rfl⟩ | hm'
    · rw [if_pos rfl]
      exact Finset.mem_insert_self _ _
    · split
      · next hp => exact Finset.mem_insert_of_mem (hp ▸ h.in_flight i m' hm' hz)
      · exact h.in_flight i m' hm' hz
  · rw [eachMessage_commits] at hx
    exact (h.commits x hx).eachMessage ho
  · rw [eachMessage_committed] at hpc
    exact (h.committed p c hpc).eachMessage ho

/-- The position a `finally` block requests is safe: it is the least offset still in flight, or the
one after the completed message when nothing is left in flight. -/
theorem safeFor_complete (h : Commits s) (htracked : Tracked s) (hi : s.message? i = some m)
    {c : ℤ} (hc : (s.offsetTracker.complete m.partition m.offset).1 = some c) :
    (s.finallyBlock i m b).SafeFor m.partition (c + 1) := by
  rw [SafeFor, finallyBlock_consumer, finallyBlock_offsetTracker]
  rcases OffsetTrackerService.complete_cases hc with hleast | ⟨hempty, rfl⟩
  · refine safe_of_isLeast hleast ?_
    have hmem : c + 1 ∈ s.offsetTracker.pending m.partition := by
      have hsub := pending_finallyBlock_subset s i m b m.partition
      rw [finallyBlock_offsetTracker] at hsub
      exact hsub hleast.1
    -- an offset in flight is that of a delivered message, hence below the fetch position
    obtain ⟨j, m', hm', hp, ho, -⟩ := htracked m.partition (c + 1) hmem
    have hlt := h.offset_lt j m' hm'
    rw [hp, ho] at hlt
    exact hlt.le
  · exact safe_of_eq_empty (by rw [hempty, Finset.coe_empty]) (h.offset_lt i m hi)

theorem finallyBlock (h : Commits s) (htracked : Tracked s) (hi : s.message? i = some m) :
    Commits (s.finallyBlock i m b) := by
  refine ⟨fun j m' hm' ↦ ?_, fun j k m₁ m₂ h₁ h₂ ↦ ?_, fun j m' hm' hz ↦ ?_, fun x hx ↦ ?_,
    fun p c hpc ↦ ?_⟩
  · rw [finallyBlock_consumer]
    exact h.offset_lt j m' ((message?_finallyBlock s i m b j).symm.trans hm')
  · rw [message?_finallyBlock] at h₁ h₂
    exact h.distinct j k m₁ m₂ h₁ h₂
  · rw [message?_finallyBlock] at hm'
    rw [completions_finallyBlock] at hz
    have hji : j ≠ i := by
      rintro rfl
      simp at hz
    have hmem := h.in_flight j m' hm' (by omega)
    rw [pending_finallyBlock]
    split
    · next hp =>
      refine Finset.mem_erase.mpr ⟨fun ho ↦ hji ?_, hp ▸ hmem⟩
      exact h.distinct j i m' m hm' hi hp ho
    · exact hmem
  · rw [finallyBlock_consumer] at hx
    rcases List.mem_append.mp hx with hx | hx
    · exact (h.commits x hx).finallyBlock
    cases hc : (s.offsetTracker.complete m.partition m.offset).1 with
    | none => simp [hc] at hx
    | some c =>
      obtain rfl : x = (m.partition, c + 1) := by simpa [hc] using hx
      exact h.safeFor_complete htracked hi hc
  · rw [finallyBlock_consumer] at hpc
    exact (h.committed p c hpc).finallyBlock

theorem step (h : Commits s) (htracked : Tracked s) (ho : InOrder s a)
    (hs : Step d E other s a s') : Commits s' := by
  rcases step_tracking hs with ⟨m, rfl, -, rfl⟩ |
    ⟨s₁, i, m, phase, b, -, hu, hcons, -, hi, rfl⟩ | ⟨-, hu, -, -, -, hc⟩
  · exact h.eachMessage ho
  · have hcommitted : s₁.consumer.committed = s.consumer.committed := by rw [hcons]
    exact (h.congr hu (Or.inl hcommitted)).finallyBlock (htracked.congr hu)
      ((hu.message i).trans (message?_eq hi))
  · exact h.congr hu hc

/-- **Every position is safe in every in-order run.** -/
theorem run (hrun : ManagerRun d E other group world l s) (hl : Meets InOrder l) : Commits s :=
  (hrun.invariant (I := fun s ↦ ((Capacity d s ∧ Ledger s) ∧ Tracked s) ∧ Commits s)
    ⟨⟨⟨.init d group world, .init d group world⟩, .init d group world⟩, init d group world⟩
    (fun _ _ _ h ho hs ↦ ⟨⟨⟨h.1.1.1.step hs, h.1.1.2.step h.1.1.1 hs⟩, h.1.2.step h.1.1.2 hs⟩,
      h.2.step h.1.2 ho hs⟩) hl).2

end Commits

/-- The position stored at the broker is never above the offset of a delivered message that has not
been completed, whatever phase its handler is in, nor above the next offset to be fetched. -/
theorem committed_le_uncompleted (hrun : ManagerRun d E other group world l s)
    (hl : Meets InOrder l) {p : ℕ} {c : ℤ} (hc : s.consumer.committed p = some c) :
    (∀ i h, s.handlers[i]? = some h → h.message.partition = p →
      Happened.completed i ∉ s.history → c ≤ h.message.offset) ∧
    c ≤ s.consumer.fetchPosition p := by
  have hcommits := Commits.run hrun hl
  have hsafe := hcommits.committed p c hc
  refine ⟨fun i h hi hp hz ↦ ?_, hsafe.le_frontier⟩
  subst hp
  have hmsg : s.message? i = some h.message := message?_eq hi
  exact hsafe.le_pending _ (hcommits.in_flight i _ hmsg (completions_eq_zero_iff.mpr hz))

/-- With offset 5 completed and offset 6 in flight, position 6 is committed. -/
theorem committed_le_uncompleted_garbled : ∃ l s,
    ManagerRun (judgeDeployment 1 [0]) anyAnswer (fun _ _ ↦ False) .fromStart () l s ∧
    Meets InOrder l ∧ s.consumer.committed 0 = some 6 ∧
    (∀ i h, s.handlers[i]? = some h → h.message.partition = 0 →
      Happened.completed i ∉ s.history → 6 ≤ h.message.offset) ∧
    6 ≤ s.consumer.fetchPosition 0 := by
  obtain ⟨l, s, hrun, hl, hc⟩ : ∃ l s,
      ManagerRun (judgeDeployment 1 [0]) anyAnswer (fun _ _ ↦ False) .fromStart () l s ∧
      Meets InOrder l ∧ s.consumer.committed 0 = some 6 := by
    refine ⟨_, _, (((Run.nil.snoc (.deliver (m := garbled 0 5) (by decide))).snoc
      (.start (i := 0) rfl)).snoc (.deliver (m := garbled 0 6) (by decide))).snoc
      (.arrive (n := 0) rfl), ?_, rfl⟩
    have h₅ : (0 : ℤ) ≤ 5 := by decide
    simp only [meets_snoc]
    exact ⟨⟨⟨⟨by simp [Meets], h₅⟩, trivial⟩, le_refl (6 : ℤ)⟩, trivial⟩
  exact ⟨l, s, hrun, hl, hc, committed_le_uncompleted hrun hl hc⟩

end ManagerState

end JudgeIt
