import JudgeIt.Async.Program

/-!
# Monitors: what a program may call, and when

A monitor watches the answered calls of a program and either moves to its next state or objects.
`Program.Obeys M s Q` says that from monitor state `s` the program never makes a call the monitor
objects to, whatever the responses, and that `Q` relates its outcome to the state the monitor ends
in. It is defined by recursion on the tree, so it descends to what is left of a program after any
number of responses: this is the form an invariant over interleaved programs needs, since there a
program is only ever seen with some prefix of its calls already made.

Most parts of a program leave the monitor where it was. `Program.Keeps` is that special case, with
one rule per combinator.
-/

namespace Async

variable {Op : Type} {Res : Op → Type} {ε α β σ : Type}

/-- The verdict of a monitor on one more answered call: its next state, or an objection. -/
abbrev Monitor (σ : Type) {Op : Type} (Res : Op → Type) := σ → (op : Op) → Res op → Option σ

/-- The state of a monitor after a whole trace. -/
def Monitor.scan (M : Monitor σ Res) : σ → List (Event Res) → Option σ
  | s, [] => some s
  | s, e :: tr => (M s e.1 e.2).bind fun s ↦ Monitor.scan M s tr

theorem Monitor.scan_append (M : Monitor σ Res) (s : σ) (tr tr' : List (Event Res)) :
    M.scan s (tr ++ tr') = (M.scan s tr).bind fun s ↦ M.scan s tr' := by
  induction tr generalizing s with
  | nil => rfl
  | cons e tr ih =>
    rw [List.cons_append, scan, scan, Option.bind_assoc]
    exact congrArg _ (funext fun s ↦ ih s)

namespace Program

variable {M : Monitor σ Res}

/-- Every call is one the monitor accepts, and the outcome and last monitor state satisfy `Q`. -/
def Obeys (M : Monitor σ Res) :
    Program Res ε α → σ → (Except ε α → σ → Prop) → Prop
  | pure a, s, Q => Q (.ok a) s
  | throw e, s, Q => Q (.error e) s
  | call op k, s, Q => ∀ r, ∃ s', M s op r = some s' ∧ (k r).Obeys M s' Q

theorem Obeys.mono {x : Program Res ε α} {s : σ} {Q Q' : Except ε α → σ → Prop}
    (h : x.Obeys M s Q) (hQ : ∀ out s', Q out s' → Q' out s') : x.Obeys M s Q' := by
  induction x generalizing s with
  | pure a => exact hQ _ _ h
  | throw e => exact hQ _ _ h
  | call op k ih =>
    intro r
    obtain ⟨s', hs', hk⟩ := h r
    exact ⟨s', hs', ih r hk⟩

/-- **Soundness.** A program that obeys a monitor has only traces the monitor accepts. -/
theorem Obeys.scan_eq {x : Program Res ε α} {s : σ} {Q : Except ε α → σ → Prop}
    (h : x.Obeys M s Q) {tr : List (Event Res)} {out : Except ε α} (hx : x.Eval tr out) :
    ∃ s', M.scan s tr = some s' ∧ Q out s' := by
  induction x generalizing s tr with
  | pure a =>
    obtain ⟨rfl, rfl⟩ := hx
    exact ⟨s, rfl, h⟩
  | throw e =>
    obtain ⟨rfl, rfl⟩ := hx
    exact ⟨s, rfl, h⟩
  | call op k ih =>
    obtain ⟨r, tr', rfl, hk⟩ := hx
    obtain ⟨s₁, hs₁, h₁⟩ := h r
    obtain ⟨s₂, hs₂, hQ⟩ := ih r h₁ hk
    exact ⟨s₂, by rw [Monitor.scan, hs₁, Option.bind_some, hs₂], hQ⟩

/-- What is left of a program after some answers still obeys the monitor, which has accepted
them. -/
theorem Obeys.scan_of_after {x y : Program Res ε α} {s : σ} {Q : Except ε α → σ → Prop}
    (h : x.Obeys M s Q) {tr : List (Event Res)} (hy : x.After tr y) :
    ∃ s', M.scan s tr = some s' ∧ y.Obeys M s' Q := by
  induction hy with
  | start => exact ⟨s, rfl, h⟩
  | answered r _ ih =>
    obtain ⟨s₁, hs₁, h₁⟩ := ih
    obtain ⟨s₂, hs₂, h₂⟩ := h₁ r
    exact ⟨s₂, by rw [Monitor.scan_append, hs₁, Option.bind_some, Monitor.scan, hs₂]; rfl, h₂⟩

/-! ## One rule per combinator -/

theorem obeys_bind {x : Program Res ε α} {f : α → Program Res ε β} {s : σ}
    {Q : Except ε β → σ → Prop}
    (h : x.Obeys M s fun out s' ↦ match out with
      | .ok a => (f a).Obeys M s' Q
      | .error e => Q (.error e) s') : (x.bind f).Obeys M s Q := by
  induction x generalizing s with
  | pure a => exact h
  | throw e => exact h
  | call op k ih =>
    intro r
    obtain ⟨s', hs', hk⟩ := h r
    exact ⟨s', hs', ih r hk⟩

theorem obeys_attempt_bind {x : Program Res ε α} {f : Except ε α → Program Res ε β} {s : σ}
    {Q : Except ε β → σ → Prop} (h : x.Obeys M s fun out s' ↦ (f out).Obeys M s' Q) :
    (x.attempt.bind f).Obeys M s Q := by
  induction x generalizing s with
  | pure a => exact h
  | throw e => exact h
  | call op k ih =>
    intro r
    obtain ⟨s', hs', hk⟩ := h r
    exact ⟨s', hs', ih r hk⟩

theorem obeys_ofExcept {a : Except ε α} {s : σ} {Q : Except ε α → σ → Prop} (h : Q a s) :
    (ofExcept a : Program Res ε α).Obeys M s Q := by
  cases a <;> exact h

theorem obeys_tryFinally {x : Program Res ε α} {f : Program Res ε Unit} {s : σ}
    {Q : Except ε α → σ → Prop}
    (h : x.Obeys M s fun out s₁ ↦ f.Obeys M s₁ fun fin s₂ ↦ match fin with
      | .ok _ => Q out s₂
      | .error e => Q (.error e) s₂) : (x.tryFinally f).Obeys M s Q := by
  refine obeys_attempt_bind (h.mono fun out s₁ h₁ ↦ obeys_bind (h₁.mono fun fin s₂ h₂ ↦ ?_))
  cases fin with
  | ok _ => exact obeys_ofExcept h₂
  | error e => exact h₂

/-! ## Programs that leave the monitor where it was -/

/-- The program only makes calls that the monitor accepts in `s`, and leaves it in `s`. -/
def Keeps (M : Monitor σ Res) (s : σ) (x : Program Res ε α) : Prop :=
  x.Obeys M s fun _ s' ↦ s' = s

section Keeps

variable {s : σ}

theorem keeps_pure (a : α) : (pure a : Program Res ε α).Keeps M s := rfl

theorem keeps_throw (e : ε) : (throw e : Program Res ε α).Keeps M s := rfl

theorem keeps_ofExcept (a : Except ε α) : (ofExcept a : Program Res ε α).Keeps M s :=
  obeys_ofExcept rfl

theorem keeps_request {op : Op} (h : ∀ r, M s op r = some s) :
    (request op : Program Res ε (Res op)).Keeps M s :=
  fun r ↦ ⟨s, h r, rfl⟩

theorem Keeps.obeys_bind {x : Program Res ε α} (hx : x.Keeps M s) {f : α → Program Res ε β}
    {Q : Except ε β → σ → Prop} (hf : ∀ a, (f a).Obeys M s Q) (he : ∀ e, Q (.error e) s) :
    (x.bind f).Obeys M s Q := by
  refine Program.obeys_bind (Obeys.mono hx fun out s' hs ↦ ?_)
  subst hs
  cases out with
  | ok a => exact hf a
  | error e => exact he e

theorem Keeps.obeys_attempt_bind {x : Program Res ε α} (hx : x.Keeps M s)
    {f : Except ε α → Program Res ε β} {Q : Except ε β → σ → Prop}
    (hf : ∀ out, (f out).Obeys M s Q) : (x.attempt.bind f).Obeys M s Q := by
  refine Program.obeys_attempt_bind (Obeys.mono hx fun out s' hs ↦ ?_)
  subst hs
  exact hf out

theorem Keeps.bind {x : Program Res ε α} (hx : x.Keeps M s) {f : α → Program Res ε β}
    (hf : ∀ a, (f a).Keeps M s) : (x.bind f).Keeps M s :=
  hx.obeys_bind hf fun _ ↦ rfl

theorem Keeps.tryCatch {x : Program Res ε α} (hx : x.Keeps M s) {h : ε → Program Res ε α}
    (hh : ∀ e, (h e).Keeps M s) : (x.tryCatch h).Keeps M s :=
  hx.obeys_attempt_bind fun
    | .ok a => keeps_pure a
    | .error e => hh e

theorem Keeps.tryFinally {x : Program Res ε α} (hx : x.Keeps M s) {f : Program Res ε Unit}
    (hf : f.Keeps M s) : (x.tryFinally f).Keeps M s :=
  hx.obeys_attempt_bind fun out ↦ hf.bind fun _ ↦ keeps_ofExcept out

theorem Keeps.both {x : Program Res ε α} (hx : x.Keeps M s) {y : Program Res ε β}
    (hy : y.Keeps M s) : (both x y).Keeps M s :=
  hx.obeys_attempt_bind fun a ↦ hy.obeys_attempt_bind fun b ↦ by
    cases a <;> cases b <;> exact rfl

theorem keeps_collect {f : α → Program Res ε β} (hf : ∀ a, (f a).Keeps M s) (l : List α) :
    (collect f l).Keeps M s := by
  induction l with
  | nil => exact keeps_pure _
  | cons a l ih => exact (hf a).bind fun b ↦ ih.bind fun bs ↦ keeps_pure _

end Keeps

/-! ## Programs that make calls of one kind only -/

/-- The monitor that lets only the calls of one kind through. -/
def only (P : Op → Prop) [DecidablePred P] : Monitor Unit Res :=
  fun s op _ ↦ if P op then some s else none

section Only

variable {P : Op → Prop} [DecidablePred P] {x : Program Res ε α}

theorem keeps_only_request {op : Op} (h : P op) :
    (request op : Program Res ε (Res op)).Keeps (only P) () :=
  keeps_request fun _ ↦ if_pos h

theorem Keeps.forall_mem (h : x.Keeps (only P) ()) {tr : List (Event Res)} {out : Except ε α}
    (hx : x.Eval tr out) : ∀ e ∈ tr, P e.1 := by
  obtain ⟨s, hscan, -⟩ := Obeys.scan_eq h hx
  clear h hx
  induction tr with
  | nil => simp
  | cons e tr ih =>
    rw [Monitor.scan, only] at hscan
    split at hscan
    · next he => exact List.forall_mem_cons.mpr ⟨he, ih hscan⟩
    · cases hscan

/-- A monitor that does not mind calls of one kind is kept by programs that keep to it. -/
theorem Keeps.of_only (h : x.Keeps (only P) ()) {s : σ} (hM : ∀ op r, P op → M s op r = some s) :
    x.Keeps M s := by
  induction x with
  | pure a => rfl
  | throw e => rfl
  | call op k ih =>
    intro r
    obtain ⟨u, hu, hk⟩ := h r
    rw [only] at hu
    split at hu
    · next hop => exact ⟨s, hM op r hop, ih r hk⟩
    · cases hu

end Only

end Program

end Async
