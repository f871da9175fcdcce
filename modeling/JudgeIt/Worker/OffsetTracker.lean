import JudgeIt.Watermark.Safe

/-!
# The offset tracker

`OffsetTrackerService` decides how far a partition may be committed. An offset is tracked when its
message is delivered and completed when its processing ends, in any order. While other offsets are
in flight, the safe offset is the one just below the lowest of them; when the last one completes,
it is the offset that completed.

A safe offset `o` is committed as the position `o + 1`, the next message to read. The two branches
of `complete` look different and are safe for different reasons, so they are separated once, in
`complete_cases`, in terms of that position.
-/

namespace JudgeIt

/-- The two maps of the tracker. `none` is a key the map does not have. -/
structure OffsetTrackerService where
  /-- The in-flight offsets of each partition. -/
  inFlight : ℕ → Option (Finset ℤ)
  /-- The highest contiguous offset safely committed. -/
  committed : ℕ → Option ℤ

namespace OffsetTrackerService

/-- `new OffsetTrackerService()`: both maps are empty. -/
def empty : OffsetTrackerService := ⟨fun _ ↦ none, fun _ ↦ none⟩

/-- `track(partition, offset)`: the partition gets an empty set first if it has none. -/
def track (t : OffsetTrackerService) (partition : ℕ) (offset : ℤ) : OffsetTrackerService :=
  { t with
    inFlight := Function.update t.inFlight partition
      (some (insert offset ((t.inFlight partition).getD ∅))) }

/-- `complete(partition, offset)`: the offset that may be committed now, if any. -/
def complete (t : OffsetTrackerService) (partition : ℕ) (offset : ℤ) :
    Option ℤ × OffsetTrackerService :=
  match t.inFlight partition with
  | none => (none, t)
  | some set =>
    let set := set.erase offset
    let t := { t with inFlight := Function.update t.inFlight partition (some set) }
    if h : set.Nonempty then
      let lowestPending := set.min' h
      let safeOffset := lowestPending - 1
      let lastCommited := (t.committed partition).getD (-1)
      if lastCommited < safeOffset then
        (some safeOffset,
          { t with committed := Function.update t.committed partition (some safeOffset) })
      else (none, t)
    else
      (some offset, { t with committed := Function.update t.committed partition (some offset) })

/-- `getCommitted(partition)`. -/
def getCommitted (t : OffsetTrackerService) (partition : ℕ) : Option ℤ := t.committed partition

/-- The offsets of a partition that are in flight. -/
def pending (t : OffsetTrackerService) (partition : ℕ) : Finset ℤ := (t.inFlight partition).getD ∅

@[simp] theorem pending_empty (p : ℕ) : empty.pending p = ∅ := rfl

/-! ## What the operations do -/

theorem pending_track (t : OffsetTrackerService) (p : ℕ) (o : ℤ) (q : ℕ) :
    (t.track p o).pending q = if q = p then insert o (t.pending p) else t.pending q := by
  by_cases h : q = p
  · subst h
    simp [pending, track]
  · simp [pending, track, h]

/-- Completing an offset takes it out of flight and touches no other partition. -/
theorem pending_complete (t : OffsetTrackerService) (p : ℕ) (o : ℤ) (q : ℕ) :
    (t.complete p o).2.pending q = if q = p then (t.pending p).erase o else t.pending q := by
  cases hp : t.inFlight p with
  | none =>
    have hempty : t.pending p = ∅ := by rw [pending, hp]; rfl
    have hsame : (t.complete p o).2 = t := by simp [complete, hp]
    rw [hsame]
    by_cases h : q = p
    · rw [if_pos h, h, hempty, Finset.erase_empty]
    · rw [if_neg h]
  | some set =>
    have hflight : (t.complete p o).2.inFlight
        = Function.update t.inFlight p (some (set.erase o)) := by
      simp only [complete, hp]
      split
      · split <;> rfl
      · rfl
    rw [pending, hflight]
    by_cases h : q = p
    · subst h
      rw [if_pos rfl, Function.update_self, Option.getD_some, pending, hp, Option.getD_some]
    · rw [if_neg h, Function.update_of_ne h, pending]

theorem pending_complete_subset (t : OffsetTrackerService) (p : ℕ) (o : ℤ) (q : ℕ) :
    (t.complete p o).2.pending q ⊆ t.pending q := by
  rw [pending_complete]
  split
  · next hq =>
    subst hq
    exact Finset.erase_subset o _
  · exact Finset.Subset.refl _

/-- **The two ways to commit.** A returned offset is either one below the lowest offset left in
flight, or the completed offset itself with nothing left in flight. -/
theorem complete_cases {t : OffsetTrackerService} {p : ℕ} {o c : ℤ}
    (h : (t.complete p o).1 = some c) :
    IsLeast ((t.complete p o).2.pending p : Set ℤ) (c + 1) ∨
    ((t.complete p o).2.pending p = ∅ ∧ c = o) := by
  rw [pending_complete, if_pos rfl]
  cases hp : t.inFlight p with
  | none => simp [complete, hp] at h
  | some set =>
    have hset : t.pending p = set := by rw [pending, hp]; rfl
    simp only [complete, hp] at h
    rw [hset]
    split at h
    · next hne =>
      split at h
      · obtain rfl : (set.erase o).min' hne - 1 = c := by simpa using h
        refine Or.inl ?_
        rw [sub_add_cancel]
        exact Finset.isLeast_min' _ hne
      · simp at h
    · next hne =>
      refine Or.inr ⟨Finset.not_nonempty_iff_eq_empty.mp hne, ?_⟩
      simpa using h.symm

/-- With nothing left in flight, the completed offset is returned. -/
theorem complete_of_erase_eq_empty {t : OffsetTrackerService} {p : ℕ} {o : ℤ}
    (ho : o ∈ t.pending p) (h : (t.pending p).erase o = ∅) : (t.complete p o).1 = some o := by
  cases hp : t.inFlight p with
  | none => simp [pending, hp] at ho
  | some set =>
    have hset : set.erase o = ∅ := by simpa [pending, hp] using h
    simp [complete, hp, hset]

/-- With `lowest` the lowest offset left in flight, the one below it is returned if it is news. -/
theorem complete_of_isLeast {t : OffsetTrackerService} {p : ℕ} {o lowest : ℤ}
    (h : IsLeast ((t.pending p).erase o : Set ℤ) lowest) : (t.complete p o).1 =
      if (t.getCommitted p).getD (-1) < lowest - 1 then some (lowest - 1) else none := by
  cases hp : t.inFlight p with
  | none =>
    have hempty : (t.pending p).erase o = ∅ := by rw [pending, hp]; rfl
    exact absurd h.1 (by simp [hempty])
  | some set =>
    have hset : t.pending p = set := by rw [pending, hp]; rfl
    rw [hset] at h
    have hne : (set.erase o).Nonempty := ⟨lowest, Finset.mem_coe.mp h.1⟩
    have hmin : (set.erase o).min' hne = lowest := (Finset.isLeast_min' _ hne).unique h
    simp only [complete, hp, dif_pos hne, hmin, getCommitted]
    exact apply_ite Prod.fst _ _ _

/-- What `complete` returns is what is recorded; when it returns nothing, nothing is recorded. -/
theorem getCommitted_complete (t : OffsetTrackerService) (p : ℕ) (o : ℤ) (q : ℕ) :
    (t.complete p o).2.getCommitted q
      = if q = p then (t.complete p o).1.or (t.getCommitted p) else t.getCommitted q := by
  cases hp : t.inFlight p with
  | none =>
    by_cases h : q = p <;> simp [complete, hp, h]
  | some set =>
    by_cases hq : q = p
    · subst hq
      simp only [complete, hp, if_pos]
      split
      · split <;> simp [getCommitted]
      · simp [getCommitted]
    · simp only [complete, hp, if_neg hq]
      split
      · split <;> simp [getCommitted, hq]
      · simp [getCommitted, hq]

@[simp] theorem getCommitted_track (t : OffsetTrackerService) (p : ℕ) (o : ℤ) (q : ℕ) :
    (t.track p o).getCommitted q = t.getCommitted q := rfl

/-! ## Partitions are independent -/

/-- Two trackers that cannot be told apart on the partition. -/
def AgreeOn (p : ℕ) (t u : OffsetTrackerService) : Prop :=
  t.inFlight p = u.inFlight p ∧ t.committed p = u.committed p

variable {p q : ℕ} {o : ℤ} {t u : OffsetTrackerService}

theorem AgreeOn.track (h : AgreeOn p t u) (o : ℤ) : AgreeOn p (t.track p o) (u.track p o) := by
  simp [AgreeOn, OffsetTrackerService.track, h.1, h.2]

theorem agreeOn_track (h : q ≠ p) : AgreeOn q (t.track p o) t := by
  simp [AgreeOn, track, h]

/-- On trackers that agree on the partition, `complete` returns and does the same. -/
theorem AgreeOn.complete (h : AgreeOn p t u) (o : ℤ) : (t.complete p o).1 = (u.complete p o).1 ∧
    AgreeOn p (t.complete p o).2 (u.complete p o).2 := by
  obtain ⟨hf, hc⟩ := h
  simp only [OffsetTrackerService.complete, ← hf, ← hc]
  cases hp : t.inFlight p with
  | none => exact ⟨rfl, hf, hc⟩
  | some set =>
    simp only
    split
    · split
      · exact ⟨rfl, by simp, by simp⟩
      · exact ⟨rfl, by simp, hc⟩
    · exact ⟨rfl, by simp, by simp⟩

theorem agreeOn_complete (h : q ≠ p) : AgreeOn q (t.complete p o).2 t := by
  simp only [complete]
  cases hp : t.inFlight p with
  | none => exact ⟨rfl, rfl⟩
  | some set =>
    simp only
    split
    · split <;> simp [AgreeOn, h]
    · simp [AgreeOn, h]

end OffsetTrackerService

end JudgeIt
