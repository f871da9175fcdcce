import JudgeIt.Async.Program

/-!
# Programs against a handler

Against a deterministic handler a program has one outcome and leaves one state. `Program.result` is
that pair, and the lemmas below evaluate it along the structure of the program, one call after the
other.

A loop whose rounds depend on the state, and change it, only through a view of it computes what a
fold over that view does (`result_collect`). A round then comes to what it would in any other view
that the body cannot tell apart (`getElem?_outputs_of_inv`): this is how the rounds before it are
shown not to matter.
-/

namespace Async

namespace Program

variable {Op : Type} {Res : Op → Type} {ε α β σ : Type} {handler : (op : Op) → σ → Res op × σ}
  {x : Program Res ε α} {s s' : σ}

/-- How the program settles, and the state it leaves. -/
def result (handler : (op : Op) → σ → Res op × σ) (x : Program Res ε α) (s : σ) : Except ε α × σ :=
  (x.run handler s).2

@[simp] theorem result_pure {a : α} :
    (pure a : Program Res ε α).result handler s = (.ok a, s) := rfl

@[simp] theorem result_throw {e : ε} :
    (throw e : Program Res ε α).result handler s = (.error e, s) := rfl

@[simp] theorem result_ofExcept {out : Except ε α} :
    (ofExcept out : Program Res ε α).result handler s = (out, s) := by
  cases out <;> rfl

theorem result_request_bind {op : Op} {f : Res op → Program Res ε β} :
    ((request op).bind f).result handler s
      = (f (handler op s).1).result handler (handler op s).2 := rfl

theorem result_bind {f : α → Program Res ε β} :
    (x.bind f).result handler s = match x.result handler s with
      | (.ok a, s') => (f a).result handler s'
      | (.error e, s') => (.error e, s') := by
  induction x generalizing s with
  | pure a => rfl
  | throw e => rfl
  | call op k ih => exact ih _

theorem result_bind_ok {a : α} (h : x.result handler s = (.ok a, s')) {f : α → Program Res ε β} :
    (x.bind f).result handler s = (f a).result handler s' := by
  rw [result_bind, h]

theorem result_attempt :
    x.attempt.result handler s = (.ok (x.result handler s).1, (x.result handler s).2) := by
  induction x generalizing s with
  | pure a => rfl
  | throw e => rfl
  | call op k ih => exact ih _

theorem result_attempt_bind {out : Except ε α} (h : x.result handler s = (out, s'))
    {f : Except ε α → Program Res ε β} :
    (x.attempt.bind f).result handler s = (f out).result handler s' := by
  rw [result_bind, result_attempt, h]

theorem result_tryFinally {f : Program Res ε Unit} {out : Except ε α} {s'' : σ}
    (h : x.result handler s = (out, s')) (hf : f.result handler s' = (.ok (), s'')) :
    (x.tryFinally f).result handler s = (out, s'') := by
  rw [tryFinally, result_attempt_bind h, result_bind_ok hf, result_ofExcept]

end Program

/-! ## Loops -/

section Outputs

variable {α β τ : Type} {g : α → τ → β} {step : α → τ → τ} {l : List α} {a : α} {t : τ}

/-- The outputs of a loop, from what a round outputs and what it makes of the state. -/
def outputs (g : α → τ → β) (step : α → τ → τ) : List α → τ → List β
  | [], _ => []
  | a :: l, t => g a t :: outputs g step l (step a t)

/-- **A round on its own.** If the rounds before it keep the state where the round outputs the same,
the output is that of the round alone. -/
theorem getElem?_outputs_of_inv {P : τ → Prop} {i : ℕ} (ht : P t) (hi : l[i]? = some a)
    (hstep : ∀ a' ∈ l.take i, ∀ t', P t' → P (step a' t'))
    {b : β} (hg : ∀ t', P t' → g a t' = b) : (outputs g step l t)[i]? = some b := by
  induction l generalizing i t with
  | nil => cases hi
  | cons a' l ih =>
    cases i with
    | zero =>
      obtain rfl : a' = a := by simpa using hi
      rw [outputs, List.getElem?_cons_zero, hg t ht]
    | succ i =>
      rw [List.take_succ_cons] at hstep
      rw [outputs, List.getElem?_cons_succ]
      exact ih (hstep a' List.mem_cons_self t ht) (by simpa using hi)
        fun b hb ↦ hstep b (List.mem_cons_of_mem a' hb)

end Outputs

namespace Program

variable {Op : Type} {Res : Op → Type} {ε α β σ τ : Type} {handler : (op : Op) → σ → Res op × σ}

/-- **Running a loop.** When a round, and what it leaves, depend on a view of the state, so does the
loop. -/
theorem result_collect {f : α → Program Res ε β} {view : σ → τ} {g : α → τ → β}
    {step : α → τ → τ} (hf : ∀ a s, ∃ s', view s' = step a (view s) ∧
      (f a).result handler s = (.ok (g a (view s)), s')) (l : List α) (s : σ) :
    ∃ s', (collect f l).result handler s = (.ok (outputs g step l (view s)), s') := by
  induction l generalizing s with
  | nil => exact ⟨s, rfl⟩
  | cons a l ih =>
    obtain ⟨s₁, hview, hround⟩ := hf a s
    obtain ⟨s₂, hrest⟩ := ih s₁
    refine ⟨s₂, ?_⟩
    rw [collect, result_bind_ok hround, result_bind_ok hrest, result_pure, outputs, hview]

end Program

end Async
