import JudgeIt.Worker.Manager

/-!
# Where the boxes are

Every sandbox box is either free or held by exactly one handler, and the handlers in the
semaphore's queue are exactly those that wait. The two facts are one invariant because a released
box is handed to the head of the queue: that the head really waits, and so holds nothing yet, is
what keeps the hand-off from duplicating a box.
-/

namespace JudgeIt

open Async Transition

variable {Op : Type} {Res : Op → Type} {ε P V ω : Type}

namespace ManagerState

/-- The boxes that were granted and have not been released. -/
def held (s : ManagerState Res ε P V ω) : List ℕ := s.handlers.filterMap fun h ↦ h.phase.box

/-- Handler `i` is queued at the semaphore. -/
def Waits (s : ManagerState Res ε P V ω) (i : ℕ) : Prop :=
  ∃ m, s.handlers[i]? = some ⟨m, .waiting⟩

/-- **The box invariant.** -/
structure Capacity (d : Deployment Res ε P V) (s : ManagerState Res ε P V ω) : Prop where
  /-- Free and held boxes together are all the boxes, each once. -/
  boxes : (s.semaphore.availableBoxes ++ s.held).Perm (List.range d.workers)
  /-- The queue holds exactly the waiting handlers. -/
  mem_queue : ∀ i, i ∈ s.semaphore.queue ↔ s.Waits i
  /-- Nobody queues twice. -/
  nodup_queue : s.semaphore.queue.Nodup

variable {d : Deployment Res ε P V} {s s' : ManagerState Res ε P V ω} {i j b : ℕ}
  {m : Message ε P} {phase phase' : Phase Res ε V}

/-! ## Changing the phase of one handler -/

theorem getElem?_setPhase (s : ManagerState Res ε P V ω) (i j : ℕ) (phase : Phase Res ε V) :
    (s.setPhase i phase).handlers[j]?
      = if i = j then s.handlers[j]?.map fun h ↦ ⟨h.message, phase⟩ else s.handlers[j]? := by
  rw [setPhase_handlers, List.getElem?_modify]
  cases s.handlers[j]? <;> split <;> rfl

theorem getElem?_setPhase_self (h : s.handlers[i]? = some ⟨m, phase⟩) (phase' : Phase Res ε V) :
    (s.setPhase i phase').handlers[i]? = some ⟨m, phase'⟩ := by
  rw [getElem?_setPhase, if_pos rfl, h]
  rfl

theorem getElem?_setPhase_ne (hij : i ≠ j) (phase : Phase Res ε V) :
    (s.setPhase i phase).handlers[j]? = s.handlers[j]? := by
  rw [getElem?_setPhase, if_neg hij]

theorem waits_setPhase_iff (hphase : phase ≠ .waiting) :
    (s.setPhase i phase).Waits j ↔ j ≠ i ∧ s.Waits j := by
  rw [Waits, Waits, getElem?_setPhase]
  by_cases h : i = j
  · subst h
    cases s.handlers[i]? <;> simp [hphase]
  · simp [h, Ne.symm h]

theorem held_setPhase (h : s.handlers[i]? = some ⟨m, phase⟩) :
    ∃ rest : List ℕ, s.held.Perm (phase.box.toList ++ rest) ∧
      ∀ phase', (s.setPhase i phase').held.Perm (phase'.box.toList ++ rest) := by
  obtain ⟨rest, hold, hnew⟩ := List.exists_filterMap_modify
    (fun h : Handler Res ε P V ↦ h.phase.box) h
  exact ⟨rest, hold, fun phase' ↦ hnew fun h ↦ { h with phase := phase' }⟩

theorem held_setPhase_of_box (h : s.handlers[i]? = some ⟨m, phase⟩)
    (hbox : phase'.box = phase.box) :
    (s.setPhase i phase').held.Perm s.held := by
  obtain ⟨rest, hold, hnew⟩ := held_setPhase h
  have hphase' := hnew phase'
  rw [hbox] at hphase'
  exact hphase'.trans hold.symm

theorem held_setPhase_of_gain (h : s.handlers[i]? = some ⟨m, phase⟩) (hnone : phase.box = none)
    (hb : phase'.box = some b) : (s.setPhase i phase').held.Perm (b :: s.held) := by
  obtain ⟨rest, hold, hnew⟩ := held_setPhase h
  have hphase' := hnew phase'
  rw [hnone, Option.toList_none, List.nil_append] at hold
  rw [hb, Option.toList_some] at hphase'
  exact hphase'.trans (hold.symm.cons b)

theorem held_setPhase_of_lose (h : s.handlers[i]? = some ⟨m, phase⟩) (hb : phase.box = some b)
    (hnone : phase'.box = none) : s.held.Perm (b :: (s.setPhase i phase').held) := by
  obtain ⟨rest, hold, hnew⟩ := held_setPhase h
  have hphase' := hnew phase'
  rw [hnone, Option.toList_none, List.nil_append] at hphase'
  rw [hb, Option.toList_some] at hold
  exact hold.trans (hphase'.symm.cons b)

theorem phaseAfter_eq (s : ManagerState Res ε P V ω) (m : Message ε P) :
    s.phaseAfter m = .committing ∨ s.phaseAfter m = .settled := by
  rw [phaseAfter]
  split
  · exact Or.inl rfl
  · exact Or.inr rfl

theorem phaseAfter_box (s : ManagerState Res ε P V ω) (m : Message ε P) :
    (s.phaseAfter m).box = none := by
  rcases s.phaseAfter_eq m with h | h <;> rw [h] <;> rfl

theorem phaseAfter_ne_waiting (s : ManagerState Res ε P V ω) (m : Message ε P) :
    s.phaseAfter m ≠ .waiting := by
  rcases s.phaseAfter_eq m with h | h <;> rw [h] <;> simp

/-! ## The invariant, stretch by stretch -/

namespace Capacity

theorem init (d : Deployment Res ε P V) (group : GroupOffsets) (world : ω) :
    Capacity d (ManagerState.init d group world) where
  boxes := by simp [ManagerState.init, SemaphoreService.ofWorkers, held]
  mem_queue := by simp [ManagerState.init, SemaphoreService.ofWorkers, Waits]
  nodup_queue := List.nodup_nil

theorem congr (h : Capacity d s) (hs : s'.semaphore = s.semaphore)
    (hh : s'.handlers = s.handlers) : Capacity d s' where
  boxes := by rw [hs, held, hh]; exact h.boxes
  mem_queue := by intro i; rw [hs, Waits, hh]; exact h.mem_queue i
  nodup_queue := by rw [hs]; exact h.nodup_queue

theorem setPhase (h : Capacity d s) (hi : s.handlers[i]? = some ⟨m, phase⟩)
    (hbox : phase'.box = phase.box) (hphase : phase ≠ .waiting) (hphase' : phase' ≠ .waiting) :
    Capacity d (s.setPhase i phase') where
  boxes := ((held_setPhase_of_box hi hbox).append_left _).trans h.boxes
  mem_queue := by
    intro j
    rw [setPhase_semaphore, h.mem_queue, waits_setPhase_iff hphase']
    refine ⟨fun hj ↦ ⟨?_, hj⟩, And.right⟩
    rintro rfl
    obtain ⟨m', hm'⟩ := hj
    rw [hi] at hm'
    cases hm'
    exact hphase rfl
  nodup_queue := h.nodup_queue

theorem eachMessage (h : Capacity d s) (m : Message ε P) : Capacity d (s.eachMessage d m) := by
  have hlast : ¬s.Waits s.handlers.length := by
    rintro ⟨m', hm'⟩
    simp at hm'
  have hwaits : ∀ (s' : ManagerState Res ε P V ω) phase, s'.handlers = s.handlers ++ [⟨m, phase⟩] →
      ∀ j, s'.Waits j ↔ s.Waits j ∨ (j = s.handlers.length ∧ phase = .waiting) := by
    intro s' phase hs' j
    rw [Waits, hs', List.getElem?_append_singleton]
    split
    · next hj =>
      subst hj
      simp [hlast]
    · next hj => simp [Waits, hj]
  rcases s.eachMessage_cases d m with ⟨b, ha, hq, hh, -⟩ | ⟨ha, ha', hq, hh, -⟩
  · refine ⟨?_, fun j ↦ ?_, ?_⟩
    · rw [held, hh, List.filterMap_append, ← held]
      refine List.Perm.trans ?_ h.boxes
      rw [ha]
      simp only [List.filterMap_cons, Phase.box, List.filterMap_nil, ← List.append_assoc]
      exact List.perm_append_singleton _ _
    · rw [hq, h.mem_queue, hwaits _ _ hh]
      simp
    · rw [hq]; exact h.nodup_queue
  · refine ⟨?_, fun j ↦ ?_, ?_⟩
    · rw [held, hh, List.filterMap_append, ← held, ha', ← ha]
      simpa [Phase.box] using h.boxes
    · rw [hq, List.mem_append, h.mem_queue, hwaits _ _ hh]
      simp
    · rw [hq]
      refine List.nodup_append.mpr ⟨h.nodup_queue, List.nodup_singleton _, ?_⟩
      rintro j hj k hk rfl
      rw [List.mem_singleton.mp hk, h.mem_queue] at hj
      exact hlast hj

theorem finallyBlock (h : Capacity d s) (hi : s.handlers[i]? = some ⟨m, phase⟩)
    (hb : phase.box = some b) : Capacity d (s.finallyBlock i m b) := by
  have hphase : phase ≠ .waiting := by
    rintro rfl
    cases hb
  have hnw : ¬s.Waits i := by
    rintro ⟨m', hm'⟩
    rw [hi] at hm'
    cases hm'
    exact hphase rfl
  rcases s.finallyBlock_cases i m b with ⟨j, hq, ha, hh, -⟩ | ⟨hq, hq', ha, hh, -⟩
  -- The box goes to the handler at the head of the queue, or back to the free ones.
  · have hj : s.Waits j := (h.mem_queue j).mp (by simp [hq])
    have hij : j ≠ i := by
      rintro rfl
      exact hnw hj
    obtain ⟨m', hm'⟩ := hj
    have hgrant : (Phase.granted b : Phase Res ε V) ≠ .waiting := by simp
    have hnd := h.nodup_queue
    rw [hq, List.nodup_cons] at hnd
    refine ⟨?_, fun k ↦ ?_, hnd.2⟩
    · have hgain : (s.setPhase j (.granted b)).held.Perm (b :: s.held) :=
        held_setPhase_of_gain hm' rfl rfl
      have hi₁ : (s.setPhase j (.granted b)).handlers[i]? = some ⟨m, phase⟩ :=
        (getElem?_setPhase_ne hij _).trans hi
      have hlose := held_setPhase_of_lose hi₁ hb (s.phaseAfter_box m)
      have hheld := (List.perm_cons b).mp (hgain.symm.trans hlose)
      rw [ha, held, hh, ← held]
      exact (hheld.symm.append_left _).trans h.boxes
    · have hk := h.mem_queue k
      rw [hq, List.mem_cons] at hk
      rw [Waits, hh, ← Waits, waits_setPhase_iff (s.phaseAfter_ne_waiting m),
        waits_setPhase_iff hgrant, ← hk]
      constructor
      · intro hkq
        refine ⟨?_, ?_, Or.inr hkq⟩
        · rintro rfl
          exact hnw (hk.mp (Or.inr hkq))
        · rintro rfl
          exact hnd.1 hkq
      · rintro ⟨-, hkj, rfl | hkq⟩
        · exact absurd rfl hkj
        · exact hkq
  · refine ⟨?_, fun k ↦ ?_, by rw [hq']; exact List.nodup_nil⟩
    · have hlose := held_setPhase_of_lose hi hb (s.phaseAfter_box m)
      rw [ha, held, hh, ← held, List.append_assoc, List.singleton_append]
      exact (hlose.symm.append_left _).trans h.boxes
    · have hk := h.mem_queue k
      rw [hq] at hk
      rw [hq', Waits, hh, ← Waits, waits_setPhase_iff (s.phaseAfter_ne_waiting m), ← hk]
      simp

theorem step {E : Env ω Res} {other : ω → ω → Prop} {a : Action Res ε P ω} (h : Capacity d s)
    (hs : Step d E other s a s') : Capacity d s' := by
  cases hs with
  | deliver _ => exact h.eachMessage _
  | @start i m b hi =>
    rw [processMessage]
    split
    · exact h.setPhase hi rfl (by simp) (by simp)
    · exact h.finallyBlock hi rfl
    · exact h.setPhase hi rfl (by simp) (by simp)
  | @respond i m b op k r world hi _ =>
    have hworld : Capacity d { s with world := world } := h.congr rfl rfl
    have hset : Capacity d ({ s with world := world }.setPhase i (.judging b (k r))) :=
      hworld.setPhase hi rfl (by simp) (by simp)
    exact hset.congr rfl rfl
  | @finish i m b out hi =>
    have hrecord : Capacity d (s.record (.judged i out)) := h.congr rfl rfl
    exact hrecord.finallyBlock hi rfl
  | arrive _ => exact h.congr rfl rfl
  | settle hi => exact h.setPhase hi rfl (by simp) (by simp)
  | interfere _ => exact h.congr rfl rfl

/-- **The box invariant holds in every run.** -/
theorem run {E : Env ω Res} {other : ω → ω → Prop} {group : GroupOffsets} {world : ω}
    {l : List (ManagerState Res ε P V ω × Action Res ε P ω)}
    (hrun : ManagerRun d E other group world l s) : Capacity d s :=
  hrun.invariant' (init d group world) fun _ _ _ h hs ↦ h.step hs

/-! ## Consequences -/

theorem nodup_held (h : Capacity d s) : s.held.Nodup :=
  (h.boxes.nodup_iff.mpr List.nodup_range).of_append_right

theorem lt_of_mem_held (h : Capacity d s) (hb : b ∈ s.held) : b < d.workers :=
  List.mem_range.mp (h.boxes.subset (List.mem_append_right _ hb))

/-- Conservation: free boxes and held boxes add up. -/
theorem available_add_length_held (h : Capacity d s) :
    s.semaphore.available + s.held.length = d.workers := by
  rw [SemaphoreService.available_eq_length, ← List.length_append, h.boxes.length_eq,
    List.length_range]

end Capacity

theorem mem_held_iff : b ∈ s.held ↔
    ∃ (i : ℕ) (h : Handler Res ε P V), s.handlers[i]? = some h ∧ h.phase.box = some b := by
  rw [held, List.mem_filterMap]
  constructor
  · rintro ⟨h, hmem, hb⟩
    obtain ⟨i, hi⟩ := List.mem_iff_getElem?.mp hmem
    exact ⟨i, h, hi, hb⟩
  · rintro ⟨i, h, hi, hb⟩
    exact ⟨h, List.mem_iff_getElem?.mpr ⟨i, hi⟩, hb⟩

end ManagerState

end JudgeIt
