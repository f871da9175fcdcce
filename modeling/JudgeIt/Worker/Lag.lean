import JudgeIt.Worker.Tracking

/-!
# How far the tracker lags behind

The tracker records how far a partition may be committed, and its comment says what that should be:
the highest offset with everything up to it completed. The general branch of `complete` records it.
The branch for an emptied set records the offset that completed last instead, which is the right one
only when it is also the highest; completed out of order, it leaves finished offsets beyond what is
recorded, and they are judged again after a restart. `always_caughtUp_iff_meets` is exact about it.

Offsets are integers here. A broker never assigns a negative one; with negative offsets the default
that stands for nothing recorded would be in the way too, which is the second part of `Timely`.
-/

namespace JudgeIt

open Transition

namespace Tracking

/-- Nothing finished on the partition is beyond what is recorded: an offset that is completed with
all below it is at most the recorded one, and with nothing left in flight the highest tracked offset
is recorded, and was returned. -/
structure CaughtUpOn (s : Tracking) (p : ℕ) : Prop where
  le_committed : ∀ o ∈ s.tracked p, (∀ o' ∈ s.tracked p, o' ≤ o → o' ∈ s.completed p) →
    ∃ c, s.service.getCommitted p = some c ∧ o ≤ c
  drained : ∀ m, IsGreatest (s.tracked p : Set ℤ) m → s.tracked p ⊆ s.completed p →
    s.service.getCommitted p = some m ∧ (s.answers p).getLast? = some (some m)

/-- No partition lags behind. -/
def CaughtUp (s : Tracking) : Prop := ∀ p, s.CaughtUpOn p

/-- A completion that leaves nothing in flight is of the highest offset tracked. The second part is
void when offsets are not negative: until something is recorded, nothing tracked lies below a lowest
offset in flight that is not positive. -/
def Timely (s : Tracking) : TrackerCall → Prop
  | .track .. => True
  | .complete p o =>
    ((s.service.pending p).erase o = ∅ → ∀ o' ∈ s.tracked p, o' ≤ o) ∧
    ∀ lowest, IsLeast ((s.service.pending p).erase o : Set ℤ) lowest →
      s.service.getCommitted p = none → lowest ≤ 0 → ∀ o' ∈ s.tracked p, lowest ≤ o'

variable {s : Tracking} {c : TrackerCall} {p : ℕ} {o : ℤ} {l : List (Tracking × TrackerCall)}

/-- For offsets that are not negative, only the completions that leave nothing in flight count. -/
theorem timely_complete_iff (hs : ∀ o ∈ s.tracked p, 0 ≤ o) : s.Timely (.complete p o) ↔
    ((s.service.pending p).erase o = ∅ → ∀ o' ∈ s.tracked p, o' ≤ o) := by
  refine ⟨And.left, fun hempty ↦ ⟨hempty, fun lowest hleast _ hle o' ho' ↦ ?_⟩⟩
  exact hle.trans (hs o' ho')

theorem CaughtUpOn.congr {t : Tracking} (h : s.CaughtUpOn p) (hagree : AgreeOn p t s) :
    t.CaughtUpOn p := by
  have hcom : t.service.getCommitted p = s.service.getCommitted p := hagree.service.2
  refine ⟨?_, ?_⟩ <;> rw [hagree.tracked, hagree.completed, hcom]
  · exact h.le_committed
  · rw [hagree.answers]
    exact h.drained

/-- Tracking a further offset finishes nothing. -/
theorem CaughtUpOn.track (h : s.CaughtUpOn p) (hs : Consistent s)
    (hc : s.Orderly (.track p o)) : (s.call (.track p o)).CaughtUpOn p := by
  have hnew : o ∉ s.completed p := fun ho ↦ lt_irrefl o (hc o (hs.completed_subset p ho))
  have htracked : (s.call (.track p o)).tracked p = insert o (s.tracked p) :=
    Function.update_self ..
  refine ⟨fun x hx hdone ↦ ?_, fun m _ hdone ↦ ?_⟩
  · rw [htracked] at hx hdone
    rcases Finset.mem_insert.mp hx with rfl | hx
    · exact absurd (hdone x (Finset.mem_insert_self x _) le_rfl) hnew
    · exact h.le_committed x hx fun o' ho' ↦ hdone o' (Finset.mem_insert_of_mem ho')
  · rw [htracked] at hdone
    exact absurd (hdone (Finset.mem_insert_self o _)) hnew

/-! ## One completion -/

theorem pending_erase_eq (hs : Consistent s) (p : ℕ) (o : ℤ) :
    (s.service.pending p).erase o = s.tracked p \ (s.call (.complete p o)).completed p := by
  rw [hs.pending_eq]
  simp [Tracking.call, Finset.sdiff_insert]

theorem getCommitted_call_complete : (s.call (.complete p o)).service.getCommitted p
    = (s.service.complete p o).1.or (s.service.getCommitted p) :=
  (getCommitted_call p).trans (if_pos rfl)

theorem getLast?_answers_call_complete :
    ((s.call (.complete p o)).answers p).getLast? = some (s.service.complete p o).1 := by
  simp [Tracking.call]

/-- **Nothing is left in flight.** Then the completed offset is recorded, and everything is
completed: the partition has caught up exactly when nothing higher was tracked. -/
theorem caughtUpOn_emptied_iff (hs : Consistent s) (hc : s.Orderly (.complete p o))
    (hempty : (s.service.pending p).erase o = ∅) :
    (s.call (.complete p o)).CaughtUpOn p ↔ ∀ o' ∈ s.tracked p, o' ≤ o := by
  have hret := OffsetTrackerService.complete_of_erase_eq_empty (hs.mem_pending hc) hempty
  have hcom : (s.call (.complete p o)).service.getCommitted p = some o := by
    rw [getCommitted_call_complete, hret, Option.some_or]
  have hans : ((s.call (.complete p o)).answers p).getLast? = some (some o) := by
    rw [getLast?_answers_call_complete, hret]
  have hall : s.tracked p ⊆ (s.call (.complete p o)).completed p := by
    rw [← Finset.sdiff_eq_empty_iff_subset, ← pending_erase_eq hs, hempty]
  constructor
  · intro hup o' ho'
    obtain ⟨c, hc', hle⟩ := hup.le_committed o' ho' fun x hx _ ↦ hall hx
    rw [hcom] at hc'
    exact hle.trans (Option.some.inj hc').ge
  · intro hhighest
    refine ⟨fun o' ho' _ ↦ ⟨o, hcom, hhighest o' ho'⟩, fun m hm _ ↦ ?_⟩
    obtain rfl : m = o := le_antisymm (hhighest m hm.1) (hm.2 hc.1)
    exact ⟨hcom, hans⟩

/-- What is done, with all below it, is what lies below the lowest offset in flight. -/
theorem forall_completed_iff_lt {lowest o' : ℤ} (hs : Consistent s)
    (hleast : IsLeast ((s.service.pending p).erase o : Set ℤ) lowest) :
    (∀ x ∈ s.tracked p, x ≤ o' → x ∈ (s.call (.complete p o)).completed p) ↔ o' < lowest := by
  have hmem : lowest ∈ s.tracked p \ (s.call (.complete p o)).completed p := by
    rw [← pending_erase_eq hs]
    exact hleast.1
  obtain ⟨htracked, hnot⟩ := Finset.mem_sdiff.mp hmem
  constructor
  · intro hx
    exact lt_of_not_ge fun hle ↦ hnot (hx lowest htracked hle)
  · intro hlt x hx hle
    by_contra hopen
    have hpending : x ∈ (s.service.pending p).erase o := by
      rw [pending_erase_eq hs]
      exact Finset.mem_sdiff.mpr ⟨hx, hopen⟩
    exact absurd (hleast.2 hpending) (not_le.mpr (hle.trans_lt hlt))

/-- **Something is left in flight.** Then everything below the lowest of it is recorded, unless the
default for nothing recorded hides it. -/
theorem caughtUpOn_unfinished_iff {lowest : ℤ} (hs : Consistent s)
    (hleast : IsLeast ((s.service.pending p).erase o : Set ℤ) lowest) :
    (s.call (.complete p o)).CaughtUpOn p ↔
      (s.service.getCommitted p = none → lowest ≤ 0 → ∀ o' ∈ s.tracked p, lowest ≤ o') := by
  have hdrained : ¬s.tracked p ⊆ (s.call (.complete p o)).completed p := fun hsub ↦
    lt_irrefl lowest ((forall_completed_iff_lt hs hleast).mp fun x hx _ ↦ hsub hx)
  have hup : (s.call (.complete p o)).CaughtUpOn p ↔ ∀ o' ∈ s.tracked p, o' < lowest →
      ∃ c, (s.call (.complete p o)).service.getCommitted p = some c ∧ o' ≤ c := by
    constructor
    · intro hup o' ho' hlt
      exact hup.le_committed o' ho' ((forall_completed_iff_lt hs hleast).mpr hlt)
    · intro hall
      exact ⟨fun o' ho' hx ↦ hall o' ho' ((forall_completed_iff_lt hs hleast).mp hx),
        fun m _ hsub ↦ absurd hsub hdrained⟩
  rw [hup, getCommitted_call_complete, OffsetTrackerService.complete_of_isLeast hleast]
  by_cases hnews : (s.service.getCommitted p).getD (-1) < lowest - 1
  · simp only [if_pos hnews, Option.some_or, Option.some.injEq, exists_eq_left']
    refine iff_of_true (fun o' _ hlt ↦ by omega) fun hnone hle ↦ ?_
    rw [hnone, Option.getD_none] at hnews
    omega
  · rw [if_neg hnews, Option.none_or]
    cases hold : s.service.getCommitted p with
    | some c =>
      -- What is recorded is at least the offset before the lowest one.
      rw [hold, Option.getD_some] at hnews
      refine iff_of_true (fun o' _ hlt ↦ ⟨c, rfl, by omega⟩) fun hnone ↦ ?_
      cases hnone
    | none =>
      rw [hold, Option.getD_none] at hnews
      simp only [reduceCtorEq, false_and, exists_false, imp_false, not_lt, forall_const]
      exact ⟨fun hle _ ↦ hle, fun hle ↦ hle (by omega)⟩

/-- **A completion keeps up exactly when it is timely.** -/
theorem caughtUpOn_complete_iff (hs : Consistent s) (hc : s.Orderly (.complete p o)) :
    (s.call (.complete p o)).CaughtUpOn p ↔ s.Timely (.complete p o) := by
  rcases Finset.eq_empty_or_nonempty ((s.service.pending p).erase o) with hempty | hne
  · rw [caughtUpOn_emptied_iff hs hc hempty]
    refine ⟨fun hhighest ↦ ⟨fun _ ↦ hhighest, fun lowest hleast ↦ ?_⟩, fun ht ↦ ht.1 hempty⟩
    exact absurd hleast.1 (by simp [hempty])
  · obtain ⟨lowest, hleast⟩ : ∃ lowest, IsLeast ((s.service.pending p).erase o : Set ℤ) lowest :=
      ⟨_, Finset.isLeast_min' _ hne⟩
    rw [caughtUpOn_unfinished_iff hs hleast]
    refine ⟨fun ht ↦ ⟨fun hempty ↦ ?_, fun lowest' hleast' ↦ ?_⟩, fun ht ↦ ht.2 lowest hleast⟩
    · exact absurd hempty hne.ne_empty
    · rwa [hleast'.unique hleast]

/-! ## Runs -/

/-- **When the tracker keeps up.** In a run of orderly calls no partition ever lags behind exactly
when every completion is timely. -/
theorem always_caughtUp_iff_meets {l : List (Tracking × TrackerCall)} (h : Run Step init l s) :
    Always CaughtUp l s ↔ Meets Timely l := by
  refine h.always_iff_meets (I := Consistent) (consistent_of_run .nil) ?_ ?_ ?_
  · exact fun p ↦ ⟨fun o ho ↦ absurd ho (Finset.notMem_empty o), fun m hm ↦
      absurd hm.1 (Finset.notMem_empty m)⟩
  · rintro s c s' hs ⟨hc, rfl⟩
    exact hs.call hc
  · rintro s c s' hs hup ⟨hc, rfl⟩
    have hother : ∀ p, p ≠ c.partition → (s.call c).CaughtUpOn p := fun p hp ↦
      (hup p).congr (agreeOn_call hp.symm)
    have hon : (s.call c).CaughtUp ↔ (s.call c).CaughtUpOn c.partition := by
      refine ⟨fun hall ↦ hall _, fun hat p ↦ ?_⟩
      by_cases hp : p = c.partition
      · exact hp ▸ hat
      · exact hother p hp
    rw [hon]
    cases c with
    | track p o => exact iff_of_true ((hup p).track hs hc) trivial
    | complete p o => exact caughtUpOn_complete_iff hs hc

/-- Two offsets completed in order: the run never lags behind. -/
theorem always_caughtUp_in_order : ∃ l s, Run Step init l s ∧
    l.map Prod.snd = [.track 0 5, .track 0 6, .complete 0 5, .complete 0 6] ∧ Meets Timely l ∧
    Always CaughtUp l s := by
  have h₁ : Run Step init _ _ := Run.nil.snoc (a := .track 0 5) ⟨by decide, rfl⟩
  have h₂ := h₁.snoc (a := .track 0 6) ⟨by decide, rfl⟩
  have h₃ := h₂.snoc (a := .complete 0 5) ⟨by decide, rfl⟩
  have h₄ := h₃.snoc (a := .complete 0 6) ⟨by decide, rfl⟩
  refine ⟨_, _, h₄, rfl, ?_, (always_caughtUp_iff_meets h₄).mpr ?_⟩ <;>
  · refine meets_snoc.mpr ⟨meets_snoc.mpr ⟨meets_snoc.mpr ⟨meets_snoc.mpr
      ⟨fun _ hx ↦ (nomatch hx), trivial⟩, trivial⟩, ?_⟩, ?_⟩
    · exact (timely_complete_iff (by decide)).mpr (by decide)
    · exact (timely_complete_iff (by decide)).mpr (by decide)

/-- The same two offsets completed the other way round: 6 is finished, and 5 is recorded. -/
theorem not_always_caughtUp : ¬∀ l s, Run Step init l s → Always CaughtUp l s := by
  intro hall
  have h₁ : Run Step init _ _ := Run.nil.snoc (a := .track 0 5) ⟨by decide, rfl⟩
  have h₂ := h₁.snoc (a := .track 0 6) ⟨by decide, rfl⟩
  have h₃ := h₂.snoc (a := .complete 0 6) ⟨by decide, rfl⟩
  have h₄ := h₃.snoc (a := .complete 0 5) ⟨by decide, rfl⟩
  obtain ⟨c, hc, hle⟩ := ((hall _ _ h₄).2 0).le_committed 6 (by decide) (by decide)
  have hc : some 5 = some c := hc
  cases hc
  omega

end Tracking

end JudgeIt
