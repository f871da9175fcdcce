import Mathlib

/-!
# Maximal runs between separators

`l.runs p` lists the maximal runs of elements of `l` that are not separators, where `p` tells the
separators. Splitting at every separator leaves an empty piece between two adjacent ones, and the
runs are the pieces that are left when those are dropped.

Everything about runs follows from one fact: a separator cuts (`runs_append_cons`). It gives the
runs of a list with its ends trimmed, and it gives back the pieces of a list that was joined with
separators, so that joining the runs with a fixed separator is a normal form.
-/

namespace List

variable {α : Type*} {p : α → Bool}

/-- The maximal runs of non-separators. -/
def runs (p : α → Bool) (l : List α) : List (List α) := (l.splitOnP p).filter (!·.isEmpty)

@[simp] theorem runs_nil : runs p ([] : List α) = [] := rfl

/-- **A separator cuts.** -/
theorem runs_append_cons {a : α} (ha : p a) (l₁ l₂ : List α) :
    runs p (l₁ ++ a :: l₂) = runs p l₁ ++ runs p l₂ := by
  rw [runs, splitOnP_append_cons _ _ ha, filter_append, runs, runs]

theorem runs_cons {a : α} (ha : p a) (l : List α) : runs p (a :: l) = runs p l :=
  runs_append_cons ha [] l

theorem runs_eq_singleton {l : List α} (h : ∀ a ∈ l, p a = false) (hne : l ≠ []) :
    runs p l = [l] := by
  rw [runs, splitOnP_eq_singleton h]
  cases l with
  | nil => exact absurd rfl hne
  | cons a l => rfl

theorem runs_eq_nil {l : List α} (h : ∀ a ∈ l, p a) : runs p l = [] := by
  induction l with
  | nil => rfl
  | cons a l ih =>
    rw [runs_cons (h a mem_cons_self), ih fun b hb ↦ h b (mem_cons_of_mem a hb)]

/-! ## Trimming -/

theorem runs_append_of_forall {l : List α} (h : ∀ a ∈ l, p a) (l' : List α) :
    runs p (l' ++ l) = runs p l' := by
  cases l with
  | nil => rw [append_nil]
  | cons a l =>
    rw [runs_append_cons (h a mem_cons_self),
      runs_eq_nil fun b hb ↦ h b (mem_cons_of_mem a hb), append_nil]

theorem runs_dropWhile (l : List α) : runs p (l.dropWhile p) = runs p l := by
  induction l with
  | nil => rfl
  | cons a l ih =>
    by_cases ha : p a
    · rw [dropWhile_cons_of_pos ha, ih, runs_cons ha]
    · rw [dropWhile_cons_of_neg ha]

theorem runs_rdropWhile (l : List α) : runs p (l.rdropWhile p) = runs p l := by
  induction l using reverseRecOn with
  | nil => rfl
  | append_singleton l a ih =>
    by_cases ha : p a
    · rw [rdropWhile_concat_pos p l a ha, ih, runs_append_of_forall (by simpa using ha)]
    · rw [rdropWhile_concat_neg p l a ha]

/-! ## Joining -/

theorem mem_runs {l r : List α} (h : r ∈ runs p l) : r ≠ [] ∧ ∀ a ∈ r, p a = false := by
  obtain ⟨hr, hne⟩ := mem_filter.mp h
  refine ⟨by simpa using hne, ?_⟩
  clear h hne
  induction l generalizing r with
  | nil =>
    rw [splitOnP_nil, mem_singleton] at hr
    simp [hr]
  | cons a l ih =>
    rw [splitOnP_cons_eq_if_modifyHead] at hr
    split at hr
    · rcases mem_cons.mp hr with rfl | hr
      · simp
      · exact ih hr
    · next ha =>
      cases hs : l.splitOnP p with
      | nil => exact absurd hs (splitOnP_ne_nil p l)
      | cons x t =>
        rw [hs, modifyHead_cons] at hr
        have hx : ∀ b ∈ x, p b = false := ih (by simp [hs])
        rcases mem_cons.mp hr with rfl | hr
        · simpa [ha] using hx
        · exact ih (by simp [hs, hr])

theorem runs_intercalate {a : α} (ha : p a) {ls : List (List α)}
    (h : ∀ l ∈ ls, l ≠ [] ∧ ∀ b ∈ l, p b = false) : runs p ([a].intercalate ls) = ls := by
  induction ls with
  | nil => rfl
  | cons l ls ih =>
    obtain ⟨⟨hne, hl⟩, hls⟩ := forall_mem_cons.mp h
    cases ls with
    | nil => simpa [intercalate] using runs_eq_singleton hl hne
    | cons l' ls =>
      have hsplit : [a].intercalate (l :: l' :: ls) = l ++ a :: [a].intercalate (l' :: ls) := by
        simp [intercalate]
      rw [hsplit, runs_append_cons ha, ih hls, runs_eq_singleton hl hne, singleton_append]

/-- **The normal form.** Two lists have the same runs exactly when their runs, joined with a
separator, are the same list. -/
theorem intercalate_runs_inj {a : α} (ha : p a) {l l' : List α} :
    [a].intercalate (runs p l) = [a].intercalate (runs p l') ↔ runs p l = runs p l' := by
  refine ⟨fun h ↦ ?_, fun h ↦ by rw [h]⟩
  rw [← runs_intercalate ha fun r hr ↦ mem_runs (l := l) hr, h,
    runs_intercalate ha fun r hr ↦ mem_runs (l := l') hr]

end List
