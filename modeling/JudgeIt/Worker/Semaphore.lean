import Mathlib

/-!
# The box semaphore

`SemaphoreService` hands out sandbox boxes. A free box is taken from the front of a list; with none
free the caller's promise is queued, and the next released box goes straight to the first waiter
without passing through the list or the counter.

The counter and the list are two copies of one fact, and a waiter only ever queues when no box is
free. Both are fields, so a semaphore that disagrees with itself cannot be built, and the
`shift()!` of `acquire` is the head of a list known to be nonempty.
-/

namespace JudgeIt

/-- The semaphore, with waiters of type `W` standing for their `resolve` functions. -/
structure SemaphoreService (W : Type) where
  /-- The number of free boxes. -/
  count : ℕ
  /-- The free boxes, next one first. -/
  availableBoxes : List ℕ
  /-- The callers waiting for a box, first come first. -/
  queue : List W
  /-- The counter counts the free boxes. -/
  count_eq : count = availableBoxes.length
  /-- Nobody waits while a box is free. -/
  count_eq_zero : queue ≠ [] → count = 0

namespace SemaphoreService

variable {W : Type}

/-- `new SemaphoreService(workers)`: every box is free. -/
def ofWorkers (workers : ℕ) : SemaphoreService W where
  count := workers
  availableBoxes := List.range workers
  queue := []
  count_eq := List.length_range.symm
  count_eq_zero := fun h ↦ absurd rfl h

/-- `acquire()`: the box the promise resolves with at once, or `none` when the caller is queued. -/
def acquire (s : SemaphoreService W) (waiter : W) : Option ℕ × SemaphoreService W :=
  if h : 0 < s.count then
    have hne : s.availableBoxes ≠ [] := by
      rw [s.count_eq] at h
      exact List.ne_nil_of_length_pos h
    (some (s.availableBoxes.head hne),
      { count := s.count - 1
        availableBoxes := s.availableBoxes.tail
        queue := s.queue
        count_eq := by rw [List.length_tail, s.count_eq]
        count_eq_zero := fun hq ↦ by rw [s.count_eq_zero hq] })
  else
    (none,
      { s with
        queue := s.queue ++ [waiter]
        count_eq_zero := fun _ ↦ by omega })

/-- `release(boxId)`: the waiter whose promise is resolved with the box, if there is one. -/
def release (s : SemaphoreService W) (boxId : ℕ) : Option W × SemaphoreService W :=
  match hq : s.queue with
  | next :: queue =>
    (some next,
      { s with
        queue := queue
        count_eq_zero := fun _ ↦ s.count_eq_zero (by simp [hq]) })
  | [] =>
    (none,
      { count := s.count + 1
        availableBoxes := s.availableBoxes ++ [boxId]
        queue := []
        count_eq := by rw [List.length_append, List.length_singleton, s.count_eq]
        count_eq_zero := fun h ↦ absurd rfl h })

/-- The `available` getter. -/
def available (s : SemaphoreService W) : ℕ := s.count

theorem available_eq_length (s : SemaphoreService W) :
    s.available = s.availableBoxes.length := s.count_eq

/-! ## What the operations do -/

/-- An `acquire` either takes the first free box or, none being free, joins the queue. -/
theorem acquire_cases (s : SemaphoreService W) (w : W) :
    (∃ b, s.availableBoxes = b :: (s.acquire w).2.availableBoxes ∧ (s.acquire w).1 = some b ∧
      (s.acquire w).2.queue = s.queue) ∨
    (s.availableBoxes = [] ∧ (s.acquire w).1 = none ∧ (s.acquire w).2.availableBoxes = [] ∧
      (s.acquire w).2.queue = s.queue ++ [w]) := by
  by_cases h : 0 < s.count
  · refine Or.inl ⟨s.availableBoxes.head ?_, ?_, ?_, ?_⟩
    · rw [s.count_eq] at h
      exact List.ne_nil_of_length_pos h
    all_goals simp [acquire, h]
  · have hnil : s.availableBoxes = [] := by
      rw [← List.length_eq_zero_iff, ← s.count_eq]
      omega
    refine Or.inr ⟨hnil, ?_, ?_, ?_⟩ <;> simp [acquire, h, hnil]

/-- A `release` either hands the box to the first waiter or, none waiting, frees it. -/
theorem release_cases (s : SemaphoreService W) (b : ℕ) :
    (∃ w, s.queue = w :: (s.release b).2.queue ∧ (s.release b).1 = some w ∧
      (s.release b).2.availableBoxes = s.availableBoxes) ∨
    (s.queue = [] ∧ (s.release b).1 = none ∧ (s.release b).2.queue = [] ∧
      (s.release b).2.availableBoxes = s.availableBoxes ++ [b]) := by
  unfold release
  split
  · next w q hq => exact Or.inl ⟨w, hq, rfl, rfl⟩
  · next hq => exact Or.inr ⟨hq, rfl, rfl, rfl⟩

end SemaphoreService

end JudgeIt
