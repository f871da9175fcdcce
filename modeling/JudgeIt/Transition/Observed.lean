import JudgeIt.Transition.Run

/-!
# Transition systems under observation

Some properties of a state are about how it was reached: what has been issued so far, or who started
before what. An observer keeps a record beside the state and brings it up to date after every step.
It never gets in the way: every run can be observed, and the record is a function of the steps.
-/

namespace Transition

variable {σ γ α : Type}

/-- The steps of a system together with the record of an observer. -/
def Observed (step : σ → α → σ → Prop) (record : γ → σ → α → γ) (x : σ × γ) (a : α)
    (y : σ × γ) : Prop :=
  step x.1 a y.1 ∧ y.2 = record x.2 x.1 a

variable {step : σ → α → σ → Prop} {record : γ → σ → α → γ} {s₀ s : σ} {g₀ : γ}

/-- The record an observer has after these steps. -/
def recordAfter (record : γ → σ → α → γ) (g₀ : γ) (l : List (σ × α)) : γ :=
  l.foldl (fun g x ↦ record g x.1 x.2) g₀

/-- Every run can be observed. -/
theorem Run.exists_observed {l : List (σ × α)} (h : Run step s₀ l s) (record : γ → σ → α → γ)
    (g₀ : γ) : ∃ l', Run (Observed step record) (s₀, g₀) l' (s, recordAfter record g₀ l) ∧
      l'.map (fun y ↦ (y.1.1, y.2)) = l := by
  induction h with
  | nil => exact ⟨[], .nil, rfl⟩
  | @snoc l s s' a _ hs ih =>
    obtain ⟨l', hrun, rfl⟩ := ih
    refine ⟨_, hrun.snoc ⟨hs, ?_⟩, List.map_append⟩
    rw [recordAfter, List.foldl_append]
    rfl

end Transition
