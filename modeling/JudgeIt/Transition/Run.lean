import Mathlib

/-!
# Runs of a labelled transition system

A run is the list of its steps, each a state together with the action taken there. Two ways of
using one are packaged: an invariant carried along every run whose steps all meet a condition, and
the exact form, where a property of states survives a step precisely when the condition holds of
that step.
-/

namespace Transition

variable {σ α : Type}

/-- The runs from `s₀`, each with its steps (the state before and the action) and last state. -/
inductive Run (step : σ → α → σ → Prop) (s₀ : σ) : List (σ × α) → σ → Prop
  /-- The empty run. -/
  | nil : Run step s₀ [] s₀
  /-- One more step at the end. -/
  | snoc {l : List (σ × α)} {s s' : σ} {a : α} :
      Run step s₀ l s → step s a s' → Run step s₀ (l ++ [(s, a)]) s'

/-- Every step of the run meets the condition. -/
def Meets (ok : σ → α → Prop) (l : List (σ × α)) : Prop := ∀ x ∈ l, ok x.1 x.2

/-- Every state the run passes through, its last one included, has the property. -/
def Always (P : σ → Prop) (l : List (σ × α)) (s : σ) : Prop := (∀ x ∈ l, P x.1) ∧ P s

variable {step : σ → α → σ → Prop} {s₀ s : σ} {l : List (σ × α)} {ok : σ → α → Prop}
  {P I : σ → Prop}

theorem meets_append {l' : List (σ × α)} : Meets ok (l ++ l') ↔ Meets ok l ∧ Meets ok l' :=
  List.forall_mem_append

theorem meets_singleton {a : α} : Meets ok [(s, a)] ↔ ok s a := List.forall_mem_singleton

theorem meets_snoc {a : α} : Meets ok (l ++ [(s, a)]) ↔ Meets ok l ∧ ok s a := by
  rw [meets_append, meets_singleton]

theorem always_snoc {a : α} {s' : σ} :
    Always P (l ++ [(s, a)]) s' ↔ Always P l s ∧ P s' := by
  simp [Always, or_imp, forall_and, and_assoc]

theorem meets_true : Meets (fun _ _ ↦ True) l := fun _ _ ↦ trivial

/-- **The invariant rule.** What holds at the start and is kept by every step that meets the
condition holds at the end of every run whose steps all meet it. -/
theorem Run.invariant (h : Run step s₀ l s) (h₀ : I s₀)
    (hstep : ∀ s a s', I s → ok s a → step s a s' → I s') (hl : Meets ok l) : I s := by
  induction h with
  | nil => exact h₀
  | snoc hr hs ih =>
    obtain ⟨hl, ha⟩ := meets_snoc.mp hl
    exact hstep _ _ _ (ih hl) ha hs

/-- The unconditional form. -/
theorem Run.invariant' (h : Run step s₀ l s) (h₀ : I s₀)
    (hstep : ∀ s a s', I s → step s a s' → I s') : I s :=
  h.invariant h₀ (fun s a s' hI _ hs ↦ hstep s a s' hI hs) meets_true

/-- What holds at the end of every run whose steps meet the condition holds throughout. -/
theorem Run.always (h : Run step s₀ l s) (hl : Meets ok l)
    (hP : ∀ l s, Run step s₀ l s → Meets ok l → P s) : Always P l s := by
  induction h with
  | nil => exact ⟨by simp, hP _ _ .nil hl⟩
  | snoc hr hs ih =>
    exact always_snoc.mpr ⟨ih (meets_snoc.mp hl).1, hP _ _ (hr.snoc hs) hl⟩

/-- **The exactness rule**, with an invariant of the runs that have kept the property so far. -/
theorem Run.always_iff_meets' (h : Run step s₀ l s) (hI₀ : I s₀) (hP₀ : P s₀)
    (hI : ∀ s a s', I s → P s → step s a s' → I s')
    (hP : ∀ s a s', I s → P s → step s a s' → (P s' ↔ ok s a)) :
    Always P l s ↔ Meets ok l := by
  suffices hboth : (Always P l s → I s) ∧ (Always P l s ↔ Meets ok l) from hboth.2
  induction h with
  | nil => exact ⟨fun _ ↦ hI₀, fun _ x hx ↦ absurd hx (by simp), fun _ ↦ ⟨by simp, hP₀⟩⟩
  | @snoc l s s' a hr hs ih =>
    obtain ⟨ihI, ih⟩ := ih
    constructor
    · intro hall
      have hbefore := (always_snoc.mp hall).1
      exact hI _ _ _ (ihI hbefore) hbefore.2 hs
    · rw [always_snoc, meets_snoc, ← ih]
      exact and_congr_right fun hbefore ↦ hP _ _ _ (ihI hbefore) hbefore.2 hs

/-- **The exactness rule.** If, from a state with the property, a step keeps the property exactly
when it meets the condition, then the runs that never lose the property are exactly the runs whose
steps all meet the condition. -/
theorem Run.always_iff_meets (h : Run step s₀ l s) (hI₀ : I s₀) (hP₀ : P s₀)
    (hI : ∀ s a s', I s → step s a s' → I s')
    (hP : ∀ s a s', I s → P s → step s a s' → (P s' ↔ ok s a)) :
    Always P l s ↔ Meets ok l :=
  h.always_iff_meets' hI₀ hP₀ (fun s a s' hIs _ hs ↦ hI s a s' hIs hs) hP

end Transition
