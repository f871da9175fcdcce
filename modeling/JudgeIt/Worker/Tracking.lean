import JudgeIt.Transition.Run
import JudgeIt.Worker.OffsetTracker

/-!
# Calls to the offset tracker

The tracker is driven by its callers: offsets of a partition are tracked in increasing order, with
any gaps, and each of them is completed once, in any order. `Tracking` keeps, beside the tracker,
what the callers have done and what they were told.

What a partition has recorded is always a safe position: below everything in flight there, and below
everything that can still be tracked there. The branch of `complete` that does not compare with the
previous value needs no comparison because of that, and `complete_returns_increasing` follows: what
is returned for a partition only grows.
-/

namespace JudgeIt

open Transition

/-- A call to the tracker. -/
inductive TrackerCall
  | track (partition : ℕ) (offset : ℤ)
  | complete (partition : ℕ) (offset : ℤ)
  deriving DecidableEq

/-- The partition a call is about. -/
def TrackerCall.partition : TrackerCall → ℕ
  | track p _ | complete p _ => p

/-- The tracker, with the calls made so far. -/
structure Tracking where
  service : OffsetTrackerService
  /-- The offsets tracked on each partition. -/
  tracked : ℕ → Finset ℤ
  /-- The offsets completed on each partition. -/
  completed : ℕ → Finset ℤ
  /-- What `complete` returned for each partition, in order. -/
  answers : ℕ → List (Option ℤ)

namespace Tracking

/-- A new tracker. -/
def init : Tracking := ⟨.empty, fun _ ↦ ∅, fun _ ↦ ∅, fun _ ↦ []⟩

/-- One call. -/
def call (s : Tracking) : TrackerCall → Tracking
  | .track p o =>
    { s with
      service := s.service.track p o
      tracked := Function.update s.tracked p (insert o (s.tracked p)) }
  | .complete p o =>
    { s with
      service := (s.service.complete p o).2
      completed := Function.update s.completed p (insert o (s.completed p))
      answers := Function.update s.answers p (s.answers p ++ [(s.service.complete p o).1]) }

/-- The callers track in increasing order, and complete what was tracked and not yet completed. -/
def Orderly (s : Tracking) : TrackerCall → Prop
  | .track p o => ∀ o' ∈ s.tracked p, o' < o
  | .complete p o => o ∈ s.tracked p ∧ o ∉ s.completed p

instance (s : Tracking) : DecidablePred s.Orderly
  | .track p o => inferInstanceAs (Decidable (∀ o' ∈ s.tracked p, o' < o))
  | .complete p o => inferInstanceAs (Decidable (o ∈ s.tracked p ∧ o ∉ s.completed p))

/-- One orderly call. -/
def Step (s : Tracking) (c : TrackerCall) (s' : Tracking) : Prop := s.Orderly c ∧ s' = s.call c

/-- The values returned for a partition, without the times there was none. -/
def returned (s : Tracking) (p : ℕ) : List ℤ := (s.answers p).reduceOption

variable {s t : Tracking} {c : TrackerCall} {p q : ℕ} {o : ℤ} {l l' : List (Tracking × TrackerCall)}

/-! ## What is in flight -/

/-- In flight is what was tracked and is not completed. -/
structure Consistent (s : Tracking) : Prop where
  completed_subset : ∀ p, s.completed p ⊆ s.tracked p
  pending_eq : ∀ p, s.service.pending p = s.tracked p \ s.completed p

theorem Consistent.call (h : Consistent s) (hc : s.Orderly c) : Consistent (s.call c) := by
  cases c with
  | track p o =>
    have hnew : o ∉ s.completed p := fun ho ↦ lt_irrefl o (hc o (h.completed_subset p ho))
    refine ⟨fun q ↦ ?_, fun q ↦ ?_⟩ <;> by_cases hq : q = p
    · subst hq
      simpa [Tracking.call] using (h.completed_subset q).trans (Finset.subset_insert o _)
    · simpa [Tracking.call, hq] using h.completed_subset q
    · subst hq
      rw [Tracking.call, OffsetTrackerService.pending_track, if_pos rfl, h.pending_eq]
      simp [Finset.insert_sdiff_of_notMem _ hnew]
    · rw [Tracking.call, OffsetTrackerService.pending_track, if_neg hq, h.pending_eq]
      simp [hq]
  | complete p o =>
    refine ⟨fun q ↦ ?_, fun q ↦ ?_⟩ <;> by_cases hq : q = p
    · subst hq
      simpa [Tracking.call] using Finset.insert_subset hc.1 (h.completed_subset q)
    · simpa [Tracking.call, hq] using h.completed_subset q
    · subst hq
      rw [Tracking.call, OffsetTrackerService.pending_complete, if_pos rfl, h.pending_eq]
      simp [Finset.sdiff_insert]
    · rw [Tracking.call, OffsetTrackerService.pending_complete, if_neg hq, h.pending_eq]
      simp [hq]

theorem consistent_of_run (h : Run Step init l s) : Consistent s :=
  h.invariant' ⟨fun _ ↦ subset_rfl, fun _ ↦ rfl⟩ fun _ _ _ hI hs ↦ hs.2 ▸ hI.call hs.1

theorem Consistent.mem_pending (h : Consistent s) (hc : s.Orderly (.complete p o)) :
    o ∈ s.service.pending p := by
  rw [h.pending_eq]
  exact Finset.mem_sdiff.mpr hc

/-! ## What is recorded is safe, and grows -/

/-- The next offset to read on the partition, as recorded, is a safe position however far tracking
has come, and everything returned so far is at most what is recorded. -/
structure Recorded (s : Tracking) : Prop where
  safe : ∀ p c, s.service.getCommitted p = some c → ∀ frontier, (∀ o ∈ s.tracked p, o < frontier) →
    Watermark.Safe (s.service.pending p : Set ℤ) frontier (c + 1)
  returned_le : ∀ p, ∀ c ∈ s.returned p, ∃ d, s.service.getCommitted p = some d ∧ c ≤ d
  returned_increasing : ∀ p, (s.returned p).Pairwise (· < ·)

theorem Recorded.track (h : Recorded s) (hc : s.Orderly (.track p o)) :
    Recorded (s.call (.track p o)) := by
  refine ⟨fun q c hq frontier hf ↦ ?_, h.returned_le, h.returned_increasing⟩
  have hsafe := h.safe q c hq
  by_cases hqp : q = p
  · subst hqp
    have hf : o < frontier ∧ ∀ o' ∈ s.tracked q, o' < frontier := by
      simpa [Tracking.call] using hf
    rw [Tracking.call, OffsetTrackerService.pending_track, if_pos rfl, Finset.coe_insert]
    exact (hsafe o hc).arrive le_rfl hf.1.le
  · rw [Tracking.call, OffsetTrackerService.pending_track, if_neg hqp]
    exact hsafe frontier (by simpa [Tracking.call, hqp] using hf)

/-- What `complete` returns is a safe position, and more than was recorded before. -/
theorem Recorded.of_complete (h : Recorded s) (hs : Consistent s) (hc : s.Orderly (.complete p o))
    {d : ℤ} (hd : (s.service.complete p o).1 = some d) :
    (∀ frontier, (∀ o' ∈ s.tracked p, o' < frontier) →
      Watermark.Safe ((s.service.complete p o).2.pending p : Set ℤ) frontier (d + 1)) ∧
    ∀ c, s.service.getCommitted p = some c → c < d := by
  have hsub : (s.service.complete p o).2.pending p ⊆ s.tracked p := by
    rw [OffsetTrackerService.pending_complete, if_pos rfl, hs.pending_eq]
    exact (Finset.erase_subset o _).trans Finset.sdiff_subset
  rcases OffsetTrackerService.complete_cases hd with hleast | ⟨hempty, rfl⟩
  · refine ⟨fun frontier hf ↦ Watermark.safe_of_isLeast hleast (hf _ (hsub hleast.1)).le, ?_⟩
    -- The general branch compares with the recorded value before it replaces it.
    intro c hcom
    rw [OffsetTrackerService.pending_complete, if_pos rfl] at hleast
    rw [OffsetTrackerService.complete_of_isLeast hleast, hcom] at hd
    split at hd
    · next hlt => simpa using hlt
    · cases hd
  · refine ⟨fun frontier hf ↦ Watermark.safe_of_eq_empty (by simp [hempty]) (hf d hc.1), ?_⟩
    -- The branch for an emptied set does not: the completed offset was in flight above it.
    intro c hcom
    obtain ⟨b, hb⟩ := (s.tracked p).bddAbove
    have hsafe := h.safe p c hcom (b + 1) fun o' ho' ↦ Int.lt_add_one_iff.mpr (hb ho')
    exact Int.add_one_le_iff.mp (hsafe.le_pending d (hs.mem_pending hc))

theorem returned_complete (q : ℕ) : (s.call (.complete p o)).returned q
    = if q = p then s.returned p ++ (s.service.complete p o).1.toList else s.returned q := by
  by_cases hq : q = p
  · subst hq
    simp only [returned, Tracking.call, Function.update_self, if_pos, List.reduceOption_append,
      List.reduceOption_singleton]
  · simp [returned, Tracking.call, hq]

theorem getCommitted_call (q : ℕ) : (s.call (.complete p o)).service.getCommitted q
    = if q = p then (s.service.complete p o).1.or (s.service.getCommitted p)
      else s.service.getCommitted q :=
  OffsetTrackerService.getCommitted_complete s.service p o q

theorem Recorded.complete (h : Recorded s) (hs : Consistent s) (hc : s.Orderly (.complete p o)) :
    Recorded (s.call (.complete p o)) := by
  have hpend : ∀ q, ((s.service.complete p o).2.pending q : Set ℤ) ⊆ s.service.pending q :=
    fun q ↦ Finset.coe_subset.mpr (OffsetTrackerService.pending_complete_subset s.service p o q)
  -- On the completed partition, what is returned is `of_complete`'s, and all else is as before.
  refine ⟨fun q c hq frontier hf ↦ ?_, fun q c hq ↦ ?_, fun q ↦ ?_⟩
  · have hf : ∀ o ∈ s.tracked q, o < frontier := hf
    rw [getCommitted_call] at hq
    split at hq
    · next hqp =>
      subst hqp
      cases hd : (s.service.complete q o).1 with
      | none => exact (h.safe q c (by simpa [hd] using hq) frontier hf).anti (hpend q)
      | some d =>
        obtain rfl : d = c := by simpa [hd] using hq
        exact (h.of_complete hs hc hd).1 frontier hf
    · exact (h.safe q c hq frontier hf).anti (hpend q)
  · rw [returned_complete] at hq
    rw [getCommitted_call]
    split at hq
    · next hqp =>
      subst hqp
      rw [if_pos rfl]
      cases hd : (s.service.complete q o).1 with
      | none => exact h.returned_le q c (by simpa [hd] using hq)
      | some d =>
        rw [hd, Option.toList_some, List.mem_append, List.mem_singleton] at hq
        refine ⟨d, rfl, ?_⟩
        rcases hq with hq | rfl
        · obtain ⟨d', hd', hle⟩ := h.returned_le q c hq
          exact hle.trans ((h.of_complete hs hc hd).2 d' hd').le
        · exact le_rfl
    · next hqp =>
      rw [if_neg hqp]
      exact h.returned_le q c hq
  · rw [returned_complete]
    split
    · cases hd : (s.service.complete p o).1 with
      | none => simpa using h.returned_increasing p
      | some d =>
        refine List.pairwise_append.mpr ⟨h.returned_increasing p, List.pairwise_singleton _ d, ?_⟩
        intro c hmem d' hd'
        obtain rfl := List.mem_singleton.mp hd'
        obtain ⟨c', hc', hle⟩ := h.returned_le p c hmem
        exact hle.trans_lt ((h.of_complete hs hc hd).2 c' hc')
    · exact h.returned_increasing q

theorem recorded_of_run (h : Run Step init l s) : Recorded s := by
  suffices hboth : Consistent s ∧ Recorded s from hboth.2
  refine h.invariant' (I := fun s ↦ Consistent s ∧ Recorded s) ?_ ?_
  · exact ⟨consistent_of_run .nil, fun _ _ hc ↦ (nomatch hc), fun _ _ hc ↦ (nomatch hc),
      fun _ ↦ List.Pairwise.nil⟩
  · rintro s c s' ⟨hs, hr⟩ ⟨hc, rfl⟩
    refine ⟨hs.call hc, ?_⟩
    cases c with
    | track p o => exact hr.track hc
    | complete p o => exact hr.complete hs hc

/-! ## Partitions are independent -/

/-- The calls of a run that are about the partition. -/
def callsOn (p : ℕ) (l : List (Tracking × TrackerCall)) : List TrackerCall :=
  (l.map Prod.snd).filter fun c ↦ c.partition = p

/-- Two states that cannot be told apart on the partition. -/
structure AgreeOn (p : ℕ) (s t : Tracking) : Prop where
  service : OffsetTrackerService.AgreeOn p s.service t.service
  tracked : s.tracked p = t.tracked p
  completed : s.completed p = t.completed p
  answers : s.answers p = t.answers p

theorem AgreeOn.trans {u : Tracking} (h : AgreeOn p s t) (h' : AgreeOn p t u) : AgreeOn p s u :=
  ⟨⟨h.service.1.trans h'.service.1, h.service.2.trans h'.service.2⟩, h.tracked.trans h'.tracked,
    h.completed.trans h'.completed, h.answers.trans h'.answers⟩

theorem AgreeOn.call (h : AgreeOn p s t) (hc : c.partition = p) :
    AgreeOn p (s.call c) (t.call c) := by
  cases c with
  | track q o =>
    obtain rfl : q = p := hc
    exact ⟨h.service.track o, by simp [Tracking.call, h.tracked], h.completed, h.answers⟩
  | complete q o =>
    obtain rfl : q = p := hc
    obtain ⟨hans, hagree⟩ := h.service.complete o
    exact ⟨hagree, h.tracked, by simp [Tracking.call, h.completed],
      by simp [Tracking.call, hans, h.answers]⟩

theorem agreeOn_call (hc : c.partition ≠ p) : AgreeOn p (s.call c) s := by
  cases c with
  | track q o =>
    have hne : p ≠ q := Ne.symm hc
    exact ⟨OffsetTrackerService.agreeOn_track hne, by simp [Tracking.call, hne], rfl, rfl⟩
  | complete q o =>
    have hne : p ≠ q := Ne.symm hc
    exact ⟨OffsetTrackerService.agreeOn_complete hne, rfl, by simp [Tracking.call, hne],
      by simp [Tracking.call, hne]⟩

/-- Replaying only the calls on a partition leads to the same state of the partition. -/
theorem agreeOn_replay (h : Run Step init l s) (p : ℕ) :
    AgreeOn p s ((callsOn p l).foldl Tracking.call init) := by
  induction h with
  | nil => exact ⟨⟨rfl, rfl⟩, rfl, rfl, rfl⟩
  | @snoc l s s' c _ hs ih =>
    obtain ⟨-, rfl⟩ := hs
    rw [callsOn, List.map_append, List.filter_append, ← callsOn, List.foldl_append]
    by_cases hc : c.partition = p
    · simpa [hc] using ih.call hc
    · simpa [hc] using (agreeOn_call hc).trans ih

/-- **What `complete` returns.** The values returned for a partition are strictly increasing, each
is what `getCommitted` says when it is returned, and all answers of a partition are determined by
the calls on it. -/
theorem complete_returns_increasing (h : Run Step init l s) :
    (∀ p, (s.returned p).Pairwise (· < ·)) ∧
    (∀ x ∈ l, ∀ p o c, x.2 = .complete p o → (x.1.service.complete p o).1 = some c →
      (x.1.call x.2).service.getCommitted p = some c) ∧
    ∀ l' s', Run Step init l' s' → ∀ p, callsOn p l = callsOn p l' →
      s.answers p = s'.answers p := by
  refine ⟨(recorded_of_run h).returned_increasing, ?_, ?_⟩
  · intro x _ p o c hx hc
    rw [hx]
    rw [getCommitted_call, if_pos rfl, hc, Option.some_or]
  · intro l' s' h' p hcalls
    have hs := (agreeOn_replay h p).answers
    rw [hcalls] at hs
    exact hs.trans (agreeOn_replay h' p).answers.symm

/-- Completing 9 and then 5 returns 4 and then 5, whatever happens on the other partition. -/
theorem complete_returns_increasing_five_nine : ∃ l s, Run Step init l s ∧
    callsOn 0 l = [.track 0 5, .track 0 9, .complete 0 9, .complete 0 5] ∧
    s.returned 0 = [4, 5] ∧ (s.returned 0).Pairwise (· < ·) := by
  have h₁ : Run Step init _ _ := Run.nil.snoc (a := .track 0 5) ⟨by decide, rfl⟩
  have h₂ := h₁.snoc (a := .track 1 7) ⟨by decide, rfl⟩
  have h₃ := h₂.snoc (a := .track 0 9) ⟨by decide, rfl⟩
  have h₄ := h₃.snoc (a := .complete 0 9) ⟨by decide, rfl⟩
  have h₅ := h₄.snoc (a := .complete 1 7) ⟨by decide, rfl⟩
  have h₆ := h₅.snoc (a := .complete 0 5) ⟨by decide, rfl⟩
  exact ⟨_, _, h₆, by decide, by decide, (complete_returns_increasing h₆).1 0⟩

end Tracking

end JudgeIt
