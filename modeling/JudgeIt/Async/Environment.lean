import JudgeIt.Async.Program

/-!
# Environments with a state

An environment says which responses a call may get in which state, and what the state is
afterwards. It is a relation, so it covers calls that may reject at any time and calls about which
nothing is known. A trace answered by an environment takes it from one state to another, and a
program run inside it ends in the state its own trace leads to.
-/

namespace Async

variable {Op : Type} {Res : Op → Type} {ε α β σ : Type}

/-- `E s op r s'`: in state `s` the call `op` may be answered by `r`, leaving state `s'`. -/
abbrev Env (σ : Type) {Op : Type} (Res : Op → Type) := σ → (op : Op) → Res op → σ → Prop

namespace Env

variable {E : Env σ Res}

/-- The environment answers the whole trace, one call after the other. -/
def Steps (E : Env σ Res) : σ → List (Event Res) → σ → Prop
  | s, [], s' => s' = s
  | s, e :: tr, s' => ∃ s₁, E s e.1 e.2 s₁ ∧ Steps E s₁ tr s'

@[simp] theorem steps_nil {s s' : σ} : E.Steps s [] s' ↔ s' = s := Iff.rfl

@[simp] theorem steps_cons {s s' : σ} {e : Event Res} {tr : List (Event Res)} :
    E.Steps s (e :: tr) s' ↔ ∃ s₁, E s e.1 e.2 s₁ ∧ E.Steps s₁ tr s' := Iff.rfl

theorem steps_append {s s' : σ} {tr₁ tr₂ : List (Event Res)} :
    E.Steps s (tr₁ ++ tr₂) s' ↔ ∃ s₁, E.Steps s tr₁ s₁ ∧ E.Steps s₁ tr₂ s' := by
  induction tr₁ generalizing s with
  | nil => simp
  | cons e tr ih =>
    simp only [List.cons_append, steps_cons, ih]
    constructor
    · rintro ⟨s₁, h₁, s₂, h₂, h₃⟩
      exact ⟨s₂, ⟨s₁, h₁, h₂⟩, h₃⟩
    · rintro ⟨s₂, ⟨s₁, h₁, h₂⟩, h₃⟩
      exact ⟨s₁, h₁, s₂, h₂, h₃⟩

/-- Calls that never change the state can be dropped from a trace. -/
theorem steps_of_frame {s s' : σ} {tr : List (Event Res)}
    (hframe : ∀ e ∈ tr, ∀ s s', E s e.1 e.2 s' → s' = s) (h : E.Steps s tr s') : s' = s := by
  induction tr generalizing s with
  | nil => exact h
  | cons e tr ih =>
    obtain ⟨s₁, h₁, h₂⟩ := h
    have hs₁ : s₁ = s := hframe e List.mem_cons_self s s₁ h₁
    subst hs₁
    exact ih (fun e he ↦ hframe e (List.mem_cons_of_mem _ he)) h₂

/-- Where no call changes the state, every part of a trace is answered in it. -/
theorem steps_infix_of_frame (hframe : ∀ s op r s', E s op r s' → s' = s) {s s' : σ}
    {tr part : List (Event Res)} (h : E.Steps s tr s') (hpart : part <:+: tr) :
    E.Steps s part s := by
  obtain ⟨before, after, rfl⟩ := hpart
  obtain ⟨s₂, hboth, -⟩ := steps_append.mp h
  obtain ⟨s₁, hbefore, hmid⟩ := steps_append.mp hboth
  have hkeep : ∀ {tr s s'}, E.Steps s tr s' → s' = s := fun htr ↦
    steps_of_frame (fun e _ s s' ↦ hframe s e.1 e.2 s') htr
  obtain rfl := hkeep hbefore
  obtain rfl := hkeep hmid
  exact hmid

/-- A handler whose responses the environment allows takes every program through it. -/
theorem steps_run {τ : Type} {handler : (op : Op) → τ → Res op × τ} {g : τ → σ}
    (h : ∀ op t, E (g t) op (handler op t).1 (g (handler op t).2)) (x : Program Res ε α) (t : τ) :
    E.Steps (g t) (x.run handler t).1 (g (x.run handler t).2.2) := by
  induction x generalizing t with
  | pure a => rfl
  | throw e => rfl
  | call op k ih => exact ⟨_, h op t, ih _ _⟩

/-- A list of programs that can each resolve in a state, and leave it, can be awaited there. -/
theorem exists_all {f : α → Program Res ε β} {l : List α} {s : σ}
    (hf : ∀ a ∈ l, ∃ tr b, (f a).Eval tr (.ok b) ∧ E.Steps s tr s) :
    ∃ tr bs, (Program.all f l).Eval tr (.ok bs) ∧ E.Steps s tr s := by
  induction l with
  | nil => exact ⟨[], [], ⟨rfl, rfl⟩, rfl⟩
  | cons a l ih =>
    obtain ⟨tr₁, b, h₁, hs₁⟩ := hf a List.mem_cons_self
    obtain ⟨tr₂, bs, h₂, hs₂⟩ := ih fun a' ha' ↦ hf a' (List.mem_cons_of_mem a ha')
    refine ⟨tr₁ ++ tr₂, b :: bs, ?_, steps_append.mpr ⟨s, hs₁, hs₂⟩⟩
    exact Program.eval_bind_iff.mpr (Or.inr ⟨(b, bs), _, [], (List.append_nil _).symm,
      Program.eval_both_ok_iff.mpr ⟨tr₁, tr₂, rfl, h₁, h₂⟩, rfl, rfl⟩)

end Env

end Async
