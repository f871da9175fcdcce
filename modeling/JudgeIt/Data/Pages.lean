import Mathlib

/-!
# Pages

A list is read page by page: page `k` of size `n` is what `n` entries from position `k * n` on are.
The first pages together are the beginning of the list, so as soon as they reach its end they are
the list, with nothing lost between two pages and nothing listed on both.

The number of pages is a rounded quotient. Rounding up is what makes it the first number of pages
that reach the end.
-/

namespace List

variable {α : Type*} {l : List α} {size k n : ℕ}

/-- Page `k`, counting from 0. -/
def page (l : List α) (size k : ℕ) : List α := (l.drop (k * size)).take size

/-- **Consecutive pages.** The first `n` pages are the beginning of the list. -/
theorem flatMap_page_range (l : List α) (size n : ℕ) :
    (range n).flatMap (l.page size) = l.take (n * size) := by
  induction n with
  | zero => simp
  | succ n ih =>
    rw [range_succ, flatMap_append, ih, flatMap_singleton, page, Nat.add_one_mul, take_add]

theorem length_page (h : (k + 1) * size ≤ l.length) : (l.page size k).length = size := by
  rw [Nat.add_one_mul] at h
  rw [page, length_take, length_drop]
  omega

theorem flatMap_page_range_of_le (h : l.length ≤ n * size) :
    (range n).flatMap (l.page size) = l := by
  rw [flatMap_page_range, take_of_length_le h]

/-! ## How many pages -/

theorem lt_ceil_div_iff {count : ℕ} (hsize : 1 ≤ size) :
    (k : ℤ) < ⌈(count : ℚ) / size⌉ ↔ k * size < count := by
  have hpos : (0 : ℚ) < size := by exact_mod_cast hsize
  rw [Int.lt_ceil, lt_div_iff₀ hpos]
  exact_mod_cast Iff.rfl

/-- The pages there are reach the end of the list. -/
theorem le_ceil_div_mul (count : ℕ) (hsize : 1 ≤ size) :
    count ≤ ⌈(count : ℚ) / size⌉.toNat * size := by
  by_contra h
  have hlt := (lt_ceil_div_iff hsize).mpr (not_le.mp h)
  exact absurd (Int.self_le_toNat _) (not_le.mpr hlt)

end List
