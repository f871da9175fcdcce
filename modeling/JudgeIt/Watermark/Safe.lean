import Mathlib

/-!
# Safe positions of an ordered stream

A stream is read in increasing order and its items are finished in any order. A position is *safe*
when nothing still pending lies below it and it has not overtaken the frontier, the least item that
can still arrive. Resuming a stream from a safe position never loses an item: whatever had not been
finished is at or above it.

Safety is monotone along the life of the stream. Finishing an item only shrinks the pending set,
and an arrival lies at or beyond the frontier, hence at or above every position that was safe
before. A position that was safe when it was computed therefore stays safe however late it is used,
which is what makes delayed and reordered commits harmless.
-/

namespace Watermark

variable {α : Type} [LinearOrder α]

/-- Nothing pending lies below `c`, and `c` is not beyond the frontier. -/
structure Safe (pending : Set α) (frontier c : α) : Prop where
  /-- No pending item is below the position. -/
  le_pending : ∀ o ∈ pending, c ≤ o
  /-- The position has not overtaken what can still arrive. -/
  le_frontier : c ≤ frontier

variable {pending pending' : Set α} {frontier frontier' c o : α}

/-- Finishing items keeps a position safe. -/
theorem Safe.anti (h : Safe pending frontier c) (hsub : pending' ⊆ pending) :
    Safe pending' frontier c :=
  ⟨fun o ho ↦ h.le_pending o (hsub ho), h.le_frontier⟩

/-- An arrival at or beyond the frontier keeps a position safe. -/
theorem Safe.arrive (h : Safe pending frontier c) (ho : frontier ≤ o) (hf : o ≤ frontier') :
    Safe (insert o pending) frontier' c := by
  refine ⟨fun o' ho' ↦ ?_, (h.le_frontier.trans ho).trans hf⟩
  rcases ho' with rfl | ho'
  · exact h.le_frontier.trans ho
  · exact h.le_pending o' ho'

/-- The least pending item is a safe position. -/
theorem safe_of_isLeast (h : IsLeast pending c) (hf : c ≤ frontier) : Safe pending frontier c :=
  ⟨fun _ ho ↦ h.2 ho, hf⟩

/-- With nothing pending, any position up to the frontier is safe. -/
theorem safe_of_eq_empty (h : pending = ∅) (hf : c ≤ frontier) : Safe pending frontier c :=
  ⟨fun o ho ↦ absurd ho (by simp [h]), hf⟩

end Watermark
