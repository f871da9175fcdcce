import JudgeIt.Judge.Accepted
import JudgeIt.Worker.Commits

/-!
# Backpressure

`isPaused` is one boolean for the whole topic. It is set together with a `pause` of every assigned
partition, when no box is free, and cleared together with a `resume` of one partition, that of the
message whose `finally` block finds it set. So it means what it says in one direction only: while
it is set, no box is free; but once it is cleared, the other assigned partitions are still paused.
-/

namespace JudgeIt

open Async Transition

variable {Op : Type} {Res : Op → Type} {ε P V ω : Type}

namespace ManagerState

variable {d : Deployment Res ε P V} {s s' : ManagerState Res ε P V ω} {E : Env ω Res}
  {other : ω → ω → Prop} {a : Action Res ε P ω} {group : GroupOffsets} {world : ω}
  {l : List (ManagerState Res ε P V ω × Action Res ε P ω)}

/-! ## While the topic is marked as paused, no box is free -/

/-- The flag is only set while no box is free. -/
def FullWhilePaused (s : ManagerState Res ε P V ω) : Prop :=
  s.isPaused = true → s.semaphore.available = 0

theorem FullWhilePaused.step (h : FullWhilePaused s) (hs : Step d E other s a s') :
    FullWhilePaused s' := by
  rcases step_tracking hs with ⟨m, -, -, rfl⟩ | ⟨s₁, i, m, phase, b, -, -, -, -, -, rfl⟩ |
    ⟨-, -, hsem, hpaused, -⟩
  · intro hp
    rw [eachMessage_isPaused, Bool.or_eq_true, beq_iff_eq] at hp
    have hzero : s.semaphore.available = 0 := hp.elim h id
    rw [SemaphoreService.available_eq_length, List.length_eq_zero_iff] at hzero ⊢
    rcases s.eachMessage_cases d m with ⟨b, ha, -⟩ | ⟨-, ha, -⟩
    · rw [hzero] at ha
      cases ha
    · exact ha
  · intro hp
    rw [finallyBlock_isPaused] at hp
    cases hp
  · intro hp
    rw [hsem]
    exact h (hpaused.symm.trans hp)

theorem FullWhilePaused.run (hrun : ManagerRun d E other group world l s) : FullWhilePaused s :=
  hrun.invariant' (fun hp ↦ by cases hp) fun _ _ _ h hs ↦ h.step hs

/-! ## What is paused at the consumer -/

/-- Paused partitions are assigned ones, and all of them while the flag is set. -/
structure PausedTopic (d : Deployment Res ε P V) (s : ManagerState Res ε P V ω) : Prop where
  subset : s.consumer.paused ⊆ d.assigned.toFinset
  all : s.isPaused = true → s.consumer.paused = d.assigned.toFinset

/-- With the flag cleared, no assigned partition is paused at the consumer. -/
def Unpaused (d : Deployment Res ε P V) (s : ManagerState Res ε P V ω) : Prop :=
  s.isPaused = false → ∀ q ∈ d.assigned, q ∉ s.consumer.paused

/-- The action runs no `finally` block that finds the flag set while the topic has an assigned
partition other than that of its own message. -/
def ResumesAll (d : Deployment Res ε P V) (s : ManagerState Res ε P V ω)
    (a : Action Res ε P ω) : Prop :=
  ∀ m, s.finallyOf a = some m → s.isPaused = true → ∀ q ∈ d.assigned, q = m.partition

theorem PausedTopic.init (d : Deployment Res ε P V) (group : GroupOffsets) (world : ω) :
    PausedTopic d (ManagerState.init d group world) :=
  ⟨Finset.empty_subset _, fun hp ↦ by cases hp⟩

theorem PausedTopic.step (h : PausedTopic d s) (hs : Step d E other s a s') :
    PausedTopic d s' := by
  rcases step_tracking hs with ⟨m, -, -, rfl⟩ |
    ⟨s₁, i, m, phase, b, -, -, hcons, hp₁, -, rfl⟩ | ⟨-, -, -, hpaused, hpart, -⟩
  · by_cases hpause : (!s.isPaused && s.semaphore.available == 0) = true
    · have hall : (s.eachMessage d m).consumer.paused = d.assigned.toFinset := by
        rw [eachMessage_paused, if_pos hpause, Finset.union_eq_right.mpr h.subset]
      exact ⟨hall.subset, fun _ ↦ hall⟩
    · have hsame : (s.eachMessage d m).consumer.paused = s.consumer.paused := by
        rw [eachMessage_paused, if_neg hpause]
      refine ⟨hsame ▸ h.subset, fun hp ↦ hsame.trans (h.all ?_)⟩
      rw [eachMessage_isPaused] at hp
      cases hs : s.isPaused <;> simp_all
  · refine ⟨?_, fun hp ↦ ?_⟩
    · rw [finallyBlock_consumer, hcons]
      dsimp only
      split
      · exact (Finset.erase_subset _ _).trans h.subset
      · exact h.subset
    · rw [finallyBlock_isPaused] at hp
      cases hp
  · exact ⟨hpart ▸ h.subset, fun hp ↦ hpart.trans (h.all (hpaused.symm.trans hp))⟩

theorem unpaused_step_iff (h : PausedTopic d s) (hP : Unpaused d s)
    (hs : Step d E other s a s') : Unpaused d s' ↔ ResumesAll d s a := by
  rcases step_tracking hs with ⟨m, rfl, -, rfl⟩ |
    ⟨s₁, i, m, phase, b, hm, -, hcons, hp₁, -, rfl⟩ | ⟨hm, -, -, hpaused, hpart, -⟩
  · refine ⟨fun _ m hm ↦ ?_, fun _ hp q hq ↦ ?_⟩
    · cases hm
    rw [eachMessage_isPaused, Bool.or_eq_false_iff] at hp
    rw [eachMessage_paused, hp.2, Bool.and_false, if_neg (by simp)]
    exact hP hp.1 q hq
  · have hres : ResumesAll d s a ↔ (s.isPaused = true → ∀ q ∈ d.assigned, q = m.partition) := by
      refine ⟨fun h ↦ h m hm, fun h m' hm' ↦ ?_⟩
      rw [hm] at hm'
      cases hm'
      exact h
    rw [hres, Unpaused, finallyBlock_isPaused, finallyBlock_consumer, hcons, hp₁]
    dsimp only
    cases hp : s.isPaused with
    | false => simpa using hP hp
    | true =>
      rw [h.all hp]
      simp only [if_true, forall_const, Finset.mem_erase, List.mem_toFinset, not_and]
      constructor
      · intro hq q hmem
        by_contra hne
        exact hq q hmem hne hmem
      · intro hq q hmem hne
        exact absurd (hq q hmem) hne
  · refine ⟨fun _ m hm' ↦ ?_, fun _ hp q hq ↦ ?_⟩
    · rw [hm] at hm'
      cases hm'
    · rw [hpart]
      exact hP (hpaused.symm.trans hp) q hq

/-- A run leaves no assigned partition paused behind a cleared flag exactly when every `finally`
block that finds the flag set belongs to the only assigned partition. -/
theorem always_unpaused_iff (hrun : ManagerRun d E other group world l s) :
    Always (Unpaused d) l s ↔ Meets (ResumesAll d) l :=
  hrun.always_iff_meets (.init d group world) (fun _ _ _ ↦ by simp [ManagerState.init])
    (fun _ _ _ h hs ↦ h.step hs) fun _ _ _ h hP hs ↦ unpaused_step_iff h hP hs

/-- With one partition, pausing and resuming match. -/
theorem always_unpaused_iff_garbled : ∃ l s,
    ManagerRun (judgeDeployment 1 [0]) anyAnswer (fun _ _ ↦ False) .fromStart () l s ∧
    (∃ x ∈ l, x.1.isPaused = true) ∧ Always (Unpaused (judgeDeployment 1 [0])) l s := by
  obtain ⟨l, s, hrun, hpaused, hl⟩ : ∃ l s,
      ManagerRun (judgeDeployment 1 [0]) anyAnswer (fun _ _ ↦ False) .fromStart () l s ∧
      (∃ x ∈ l, x.1.isPaused = true) ∧ Meets (ResumesAll (judgeDeployment 1 [0])) l := by
    refine ⟨_, _, ((Run.nil.snoc (.deliver (m := garbled 0 0) (by decide))).snoc
      (.deliver (m := garbled 0 1) (by decide))).snoc (.start (i := 0) rfl),
      ⟨_, List.mem_append_right _ (List.mem_singleton_self _), rfl⟩, ?_⟩
    simp only [meets_snoc]
    refine ⟨⟨⟨by simp [Meets], fun _ hm ↦ by cases hm⟩, fun _ hm ↦ by cases hm⟩, ?_⟩
    rintro m hm - q hq
    cases hm
    exact List.mem_singleton.mp hq
  exact ⟨l, s, hrun, hpaused, (always_unpaused_iff hrun).mpr hl⟩

theorem judged_mem_finallyBlock (s : ManagerState Res ε P V ω) (i : ℕ) (m : Message ε P) (b : ℕ)
    (out : Except ε V) :
    .judged i out ∈ ((s.record (.judged i out)).finallyBlock i m b).history := by
  rcases (s.record (.judged i out)).finallyBlock_cases i m b with ⟨j, -, -, -, hh⟩ |
    ⟨-, -, -, -, hh⟩
  · rw [hh]
    simp [record]
  · rw [hh]
    simp [record]

/-- With one box and two partitions: a second message pauses both, and the end of the first, whose
submission passes its test, resumes one of them. -/
theorem unpaused_left_behind : ∃ l s,
    ManagerRun (judgeDeployment 1 [0, 1]) anyAnswer (fun _ _ ↦ False) .fromStart () l s ∧
    .judged 0 (.ok ["ACC"]) ∈ s.history ∧ s.isPaused = false ∧ s.consumer.paused = {1} ∧
    ¬Unpaused (judgeDeployment 1 [0, 1]) s := by
  have hinit : ManagerRun (judgeDeployment 1 [0, 1]) anyAnswer (fun _ _ ↦ False) .fromStart () []
    _ := .nil
  have hstarted := ((hinit.snoc
    (.deliver (m := ⟨0, 0, some (.ok (some sumEvent))⟩) (by decide))).snoc
    (.deliver (m := garbled 1 0) (by decide))).snoc (.start (i := 0) rfl)
  obtain ⟨l, hjudged, -⟩ := exists_run_answered (i := 0) eval_passed hstarted rfl
    (steps_anyAnswer _)
  refine ⟨_, _, hjudged.snoc (.finish (i := 0) rfl), ?_, rfl, by decide, ?_⟩
  · exact judged_mem_finallyBlock ..
  · exact fun h ↦ h rfl 1 (by decide) (by decide)

end ManagerState

end JudgeIt
