import Mathlib

/-!
# Asynchronous programs as trees of awaited calls

An `async` function runs synchronously up to its next `await`, hands one call to its environment
and continues with the response. It is represented by the tree of everything it can do: a leaf
where its promise settles, and a node for each call with one continuation per response. A call
that may reject has a response type of the form `Except ε α`; a call that always resolves has a
plain one. The tree is inductive, so a program settles after finitely many responses.

## Two semantics

- `Program.Eval x tr out`: answered by the responses recorded in `tr`, the program makes exactly
  the calls of `tr` and settles with `out`. Nothing is assumed of the environment, so a statement
  about every `tr` is a statement about every behaviour of the outside world.
- `Program.run`: the same against a deterministic handler, computable, for concrete inputs.

The inversion lemmas `eval_bind_iff`, `eval_attempt_iff` and their relatives cut the trace of a
compound program at the seams of its parts. They are the only place where the tree is unfolded.
-/

namespace Async

/-- A program awaiting calls `op : Op`, each answered by a response of type `Res op`. -/
inductive Program {Op : Type} (Res : Op → Type) (ε α : Type) : Type
  /-- The promise resolves. -/
  | pure (a : α)
  /-- The promise rejects. -/
  | throw (e : ε)
  /-- Await the response to `op`. -/
  | call (op : Op) (k : Res op → Program Res ε α)

/-- A call together with the response it got. -/
abbrev Event {Op : Type} (Res : Op → Type) := (op : Op) × Res op

namespace Program

variable {Op : Type} {Res : Op → Type} {ε α β γ : Type}

/-! ## Combinators -/

/-- Sequencing: `x` first, then `f` on its value; a rejection of `x` skips `f`. -/
def bind : Program Res ε α → (α → Program Res ε β) → Program Res ε β
  | pure a, f => f a
  | throw e, _ => throw e
  | call op k, f => call op fun r ↦ (k r).bind f

instance : Monad (Program Res ε) where
  pure := pure
  bind := bind

/-- Await one call and return its response. -/
def request (op : Op) : Program Res ε (Res op) := call op pure

/-- Settle with a given outcome. -/
def ofExcept : Except ε α → Program Res ε α
  | .ok a => pure a
  | .error e => throw e

/-- Run `x` to its end and return its outcome instead of rejecting. -/
def attempt : Program Res ε α → Program Res ε (Except ε α)
  | pure a => pure (.ok a)
  | throw e => pure (.error e)
  | call op k => call op fun r ↦ (k r).attempt

/-- `try { x } catch (e) { h(e) }`. -/
def tryCatch (x : Program Res ε α) (h : ε → Program Res ε α) : Program Res ε α :=
  x.attempt.bind fun
    | .ok a => pure a
    | .error e => h e

/-- `try { x } finally { f }`; a rejection of `f` replaces the outcome of `x`. -/
def tryFinally (x : Program Res ε α) (f : Program Res ε Unit) : Program Res ε α :=
  x.attempt.bind fun out ↦ f.bind fun _ ↦ ofExcept out

/-- `Promise.all` of two programs: both are run, and the pair rejects when either does. -/
def both (x : Program Res ε α) (y : Program Res ε β) : Program Res ε (α × β) :=
  x.attempt.bind fun a ↦ y.attempt.bind fun b ↦
    match a, b with
    | .ok a, .ok b => pure (a, b)
    | .error e, _ => throw e
    | _, .error e => throw e

/-- `Promise.all(l.map(f))`: all are run, and the list rejects when one of them does. -/
def all (f : α → Program Res ε β) : List α → Program Res ε (List β)
  | [] => pure []
  | a :: l => (both (f a) (all f l)).bind fun p ↦ pure (p.1 :: p.2)

/-- `for (const a of l) out.push(await f(a))`. -/
def collect (f : α → Program Res ε β) : List α → Program Res ε (List β)
  | [] => pure []
  | a :: l => (f a).bind fun b ↦ (collect f l).bind fun bs ↦ pure (b :: bs)

@[simp] theorem pure_eq (a : α) : (Pure.pure a : Program Res ε α) = pure a := rfl

@[simp] theorem bind_eq (x : Program Res ε α) (f : α → Program Res ε β) : x >>= f = x.bind f := rfl

theorem bind_assoc (x : Program Res ε α) (f : α → Program Res ε β) (g : β → Program Res ε γ) :
    (x.bind f).bind g = x.bind fun a ↦ (f a).bind g := by
  induction x with
  | pure a => rfl
  | throw e => rfl
  | call op k ih => exact congrArg _ (funext ih)

/-! ## Traces -/

/-- The program makes exactly the calls of the trace, gets the responses recorded there, and
settles with the given outcome. -/
def Eval : Program Res ε α → List (Event Res) → Except ε α → Prop
  | pure a, tr, out => tr = [] ∧ out = .ok a
  | throw e, tr, out => tr = [] ∧ out = .error e
  | call op k, tr, out => ∃ r tr', tr = ⟨op, r⟩ :: tr' ∧ (k r).Eval tr' out

@[simp] theorem eval_pure_iff {a : α} {tr : List (Event Res)} {out : Except ε α} :
    (pure a : Program Res ε α).Eval tr out ↔ tr = [] ∧ out = .ok a := Iff.rfl

@[simp] theorem eval_throw_iff {e : ε} {tr : List (Event Res)} {out : Except ε α} :
    (throw e : Program Res ε α).Eval tr out ↔ tr = [] ∧ out = .error e := Iff.rfl

theorem eval_call_iff {op : Op} {k : Res op → Program Res ε α} {tr : List (Event Res)}
    {out : Except ε α} :
    (call op k).Eval tr out ↔ ∃ r tr', tr = ⟨op, r⟩ :: tr' ∧ (k r).Eval tr' out := Iff.rfl

theorem Eval.call {op : Op} {k : Res op → Program Res ε α} {r : Res op} {tr : List (Event Res)}
    {out : Except ε α} (h : (k r).Eval tr out) : (call op k).Eval (⟨op, r⟩ :: tr) out :=
  ⟨r, tr, rfl, h⟩

@[simp] theorem eval_request_iff {op : Op} {tr : List (Event Res)} {out : Except ε (Res op)} :
    (request op : Program Res ε (Res op)).Eval tr out ↔ ∃ r, tr = [⟨op, r⟩] ∧ out = .ok r := by
  rw [request, eval_call_iff]
  constructor
  · rintro ⟨r, tr', rfl, rfl, rfl⟩
    exact ⟨r, rfl, rfl⟩
  · rintro ⟨r, rfl, rfl⟩
    exact ⟨r, [], rfl, rfl, rfl⟩

@[simp] theorem eval_ofExcept_iff {a : Except ε α} {tr : List (Event Res)} {out : Except ε α} :
    (ofExcept a : Program Res ε α).Eval tr out ↔ tr = [] ∧ out = a := by
  cases a <;> rfl

/-- **Cutting a sequence.** Either the first part rejects and ends the run, or the trace splits
where its value is handed on. -/
theorem eval_bind_iff {x : Program Res ε α} {f : α → Program Res ε β} {tr : List (Event Res)}
    {out : Except ε β} :
    (x.bind f).Eval tr out ↔
      (∃ e, x.Eval tr (.error e) ∧ out = .error e) ∨
      ∃ a tr₁ tr₂, tr = tr₁ ++ tr₂ ∧ x.Eval tr₁ (.ok a) ∧ (f a).Eval tr₂ out := by
  induction x generalizing tr with
  | pure a =>
    simp only [bind, eval_pure_iff]
    constructor
    · exact fun h ↦ Or.inr ⟨a, [], tr, rfl, ⟨rfl, rfl⟩, h⟩
    · rintro (⟨e, ⟨-, he⟩, -⟩ | ⟨a', tr₁, tr₂, rfl, ⟨rfl, ha⟩, h⟩)
      · cases he
      · cases ha; exact h
  | throw e =>
    simp only [bind, eval_throw_iff]
    constructor
    · rintro ⟨rfl, rfl⟩
      exact Or.inl ⟨e, ⟨rfl, rfl⟩, rfl⟩
    · rintro (⟨e', ⟨rfl, he⟩, rfl⟩ | ⟨a, tr₁, tr₂, rfl, ⟨-, ha⟩, -⟩)
      · cases he; exact ⟨rfl, rfl⟩
      · cases ha
  | call op k ih =>
    simp only [bind, eval_call_iff, ih]
    constructor
    · rintro ⟨r, tr', rfl, ⟨e, he, rfl⟩ | ⟨a, tr₁, tr₂, rfl, h₁, h₂⟩⟩
      · exact Or.inl ⟨e, ⟨r, tr', rfl, he⟩, rfl⟩
      · exact Or.inr ⟨a, ⟨op, r⟩ :: tr₁, tr₂, rfl, ⟨r, tr₁, rfl, h₁⟩, h₂⟩
    · rintro (⟨e, ⟨r, tr', rfl, he⟩, rfl⟩ | ⟨a, _, tr₂, rfl, ⟨r, tr₁, rfl, h₁⟩, h₂⟩)
      · exact ⟨r, tr', rfl, Or.inl ⟨e, he, rfl⟩⟩
      · exact ⟨r, tr₁ ++ tr₂, rfl, Or.inr ⟨a, tr₁, tr₂, rfl, h₁, h₂⟩⟩

theorem eval_attempt_iff {x : Program Res ε α} {tr : List (Event Res)}
    {out : Except ε (Except ε α)} :
    x.attempt.Eval tr out ↔ ∃ r, out = .ok r ∧ x.Eval tr r := by
  induction x generalizing tr with
  | pure a =>
    simp only [attempt, eval_pure_iff]
    exact ⟨fun ⟨h, h'⟩ ↦ ⟨_, h', h, rfl⟩, fun ⟨r, h, h', hr⟩ ↦ ⟨h', hr ▸ h⟩⟩
  | throw e =>
    simp only [attempt, eval_pure_iff, eval_throw_iff]
    exact ⟨fun ⟨h, h'⟩ ↦ ⟨_, h', h, rfl⟩, fun ⟨r, h, h', hr⟩ ↦ ⟨h', hr ▸ h⟩⟩
  | call op k ih =>
    simp only [attempt, eval_call_iff, ih]
    constructor
    · rintro ⟨r, tr', rfl, a, rfl, h⟩
      exact ⟨a, rfl, r, tr', rfl, h⟩
    · rintro ⟨a, rfl, r, tr', rfl, h⟩
      exact ⟨r, tr', rfl, a, rfl, h⟩

/-- The form in which attempts are used: the outcome is handed on, whatever it is. -/
theorem eval_attempt_bind_iff {x : Program Res ε α} {f : Except ε α → Program Res ε β}
    {tr : List (Event Res)} {out : Except ε β} :
    (x.attempt.bind f).Eval tr out ↔
      ∃ r tr₁ tr₂, tr = tr₁ ++ tr₂ ∧ x.Eval tr₁ r ∧ (f r).Eval tr₂ out := by
  rw [eval_bind_iff]
  constructor
  · rintro (⟨e, he, -⟩ | ⟨a, tr₁, tr₂, htr, h₁, h₂⟩)
    · obtain ⟨r, hr, -⟩ := eval_attempt_iff.mp he
      cases hr
    · obtain ⟨r, hr, hx⟩ := eval_attempt_iff.mp h₁
      cases hr
      exact ⟨a, tr₁, tr₂, htr, hx, h₂⟩
  · rintro ⟨r, tr₁, tr₂, htr, h₁, h₂⟩
    exact Or.inr ⟨r, tr₁, tr₂, htr, eval_attempt_iff.mpr ⟨r, rfl, h₁⟩, h₂⟩

theorem eval_request_bind_iff {op : Op} {f : Res op → Program Res ε β} {tr : List (Event Res)}
    {out : Except ε β} :
    ((request op).bind f).Eval tr out ↔ ∃ r tr', tr = ⟨op, r⟩ :: tr' ∧ (f r).Eval tr' out :=
  Iff.rfl

theorem eval_tryCatch_iff {x : Program Res ε α} {h : ε → Program Res ε α}
    {tr : List (Event Res)} {out : Except ε α} :
    (x.tryCatch h).Eval tr out ↔
      (∃ a, x.Eval tr (.ok a) ∧ out = .ok a) ∨
      ∃ e tr₁ tr₂, tr = tr₁ ++ tr₂ ∧ x.Eval tr₁ (.error e) ∧ (h e).Eval tr₂ out := by
  rw [tryCatch, eval_attempt_bind_iff]
  constructor
  · rintro ⟨r, tr₁, tr₂, rfl, hx, hr⟩
    cases r with
    | ok a =>
      obtain ⟨rfl, rfl⟩ := hr
      rw [List.append_nil]
      exact Or.inl ⟨a, hx, rfl⟩
    | error e => exact Or.inr ⟨e, tr₁, tr₂, rfl, hx, hr⟩
  · rintro (⟨a, hx, rfl⟩ | ⟨e, tr₁, tr₂, rfl, hx, hr⟩)
    · exact ⟨.ok a, tr, [], (List.append_nil tr).symm, hx, rfl, rfl⟩
    · exact ⟨.error e, tr₁, tr₂, rfl, hx, hr⟩

/-- A handler that throws what it has caught changes nothing. -/
theorem eval_rethrow_iff {x : Program Res ε α} {tr : List (Event Res)} {out : Except ε α} :
    (x.tryCatch fun e ↦ .throw e).Eval tr out ↔ x.Eval tr out := by
  rw [eval_tryCatch_iff]
  constructor
  · rintro (⟨a, hx, rfl⟩ | ⟨e, tr₁, tr₂, rfl, hx, rfl, rfl⟩)
    · exact hx
    · rwa [List.append_nil]
  · intro hx
    cases out with
    | ok a => exact Or.inl ⟨a, hx, rfl⟩
    | error e => exact Or.inr ⟨e, tr, [], (List.append_nil tr).symm, hx, rfl, rfl⟩

theorem eval_tryFinally_iff {x : Program Res ε α} {f : Program Res ε Unit}
    (hf : ∀ tr e, ¬f.Eval tr (.error e)) {tr : List (Event Res)} {out : Except ε α} :
    (x.tryFinally f).Eval tr out ↔
      ∃ tr₁ tr₂, tr = tr₁ ++ tr₂ ∧ x.Eval tr₁ out ∧ f.Eval tr₂ (.ok ()) := by
  rw [tryFinally, eval_attempt_bind_iff]
  constructor
  · rintro ⟨r, tr₁, tr₂, rfl, hx, hr⟩
    rcases eval_bind_iff.mp hr with ⟨e, he, -⟩ | ⟨u, tr₃, tr₄, rfl, h₁, h₂⟩
    · exact absurd he (hf _ e)
    · obtain ⟨rfl, rfl⟩ := eval_ofExcept_iff.mp h₂
      rw [List.append_nil]
      exact ⟨tr₁, tr₃, rfl, hx, h₁⟩
  · rintro ⟨tr₁, tr₂, rfl, hx, h₁⟩
    refine ⟨out, tr₁, tr₂, rfl, hx, eval_bind_iff.mpr (Or.inr ?_)⟩
    exact ⟨(), tr₂, [], (List.append_nil _).symm, h₁, eval_ofExcept_iff.mpr ⟨rfl, rfl⟩⟩

theorem eval_both_ok_iff {x : Program Res ε α} {y : Program Res ε β} {tr : List (Event Res)}
    {p : α × β} :
    (both x y).Eval tr (.ok p) ↔
      ∃ tr₁ tr₂, tr = tr₁ ++ tr₂ ∧ x.Eval tr₁ (.ok p.1) ∧ y.Eval tr₂ (.ok p.2) := by
  rw [both, eval_attempt_bind_iff]
  constructor
  · rintro ⟨a, tr₁, tr₂, rfl, hx, h⟩
    obtain ⟨b, tr₃, tr₄, rfl, hy, h⟩ := eval_attempt_bind_iff.mp h
    cases a <;> cases b <;> simp only [eval_pure_iff, eval_throw_iff, reduceCtorEq, and_false] at h
    obtain ⟨rfl, hp⟩ := h
    cases hp
    exact ⟨tr₁, tr₃, by rw [List.append_nil], hx, hy⟩
  · rintro ⟨tr₁, tr₂, rfl, hx, hy⟩
    refine ⟨.ok p.1, tr₁, tr₂, rfl, hx, eval_attempt_bind_iff.mpr ?_⟩
    exact ⟨.ok p.2, tr₂, [], (List.append_nil _).symm, hy, rfl, rfl⟩

/-- When the pair rejects, both parts have been run and one of them rejected. -/
theorem Eval.both_error {x : Program Res ε α} {y : Program Res ε β} {tr : List (Event Res)} {e : ε}
    (h : (both x y).Eval tr (.error e)) :
    ∃ tr₁ tr₂ a b, tr = tr₁ ++ tr₂ ∧ x.Eval tr₁ a ∧ y.Eval tr₂ b ∧
      (a = .error e ∨ b = .error e) := by
  rw [both, eval_attempt_bind_iff] at h
  obtain ⟨a, tr₁, tr₂, rfl, hx, h⟩ := h
  obtain ⟨b, tr₃, tr₄, rfl, hy, h⟩ := eval_attempt_bind_iff.mp h
  refine ⟨tr₁, tr₃, a, b, ?_, hx, hy, ?_⟩ <;> cases a <;> cases b <;>
    simp_all

/-- Where a list of programs resolves, each of them has, with the value that is listed. -/
theorem Eval.all_ok {f : α → Program Res ε β} {l : List α} {tr : List (Event Res)} {bs : List β}
    (h : (all f l).Eval tr (.ok bs)) :
    List.Forall₂ (fun a b ↦ ∃ seg, seg <:+: tr ∧ (f a).Eval seg (.ok b)) l bs := by
  induction l generalizing tr bs with
  | nil =>
    obtain ⟨-, hout⟩ := h
    cases hout
    exact .nil
  | cons a l ih =>
    rcases eval_bind_iff.mp h with ⟨e, -, hout⟩ | ⟨p, tr₁, tr₂, rfl, h₁, rfl, hout⟩
    · cases hout
    cases hout
    obtain ⟨tr₃, tr₄, rfl, ha, hl⟩ := eval_both_ok_iff.mp h₁
    rw [List.append_nil]
    refine .cons ⟨tr₃, (List.prefix_append tr₃ tr₄).isInfix, ha⟩ ?_
    refine (ih hl).imp fun b c ⟨seg, hseg, hb⟩ ↦ ⟨seg, hseg.trans ?_, hb⟩
    exact (List.suffix_append tr₃ tr₄).isInfix

/-- **Cutting a loop.** A loop that resolves has run its body to the end once per element, in
order. -/
theorem eval_collect_ok_iff {f : α → Program Res ε β} {l : List α} {tr : List (Event Res)}
    {bs : List β} :
    (collect f l).Eval tr (.ok bs) ↔
      ∃ segments : List (List (Event Res)), tr = segments.flatten ∧
        List.Forall₂ (fun p seg ↦ (f p.1).Eval seg (.ok p.2)) (l.zip bs) segments ∧
        bs.length = l.length := by
  induction l generalizing tr bs with
  | nil =>
    rw [collect, eval_pure_iff]
    constructor
    · rintro ⟨rfl, h⟩
      cases h
      exact ⟨[], rfl, List.Forall₂.nil, rfl⟩
    · rintro ⟨segments, rfl, h, hlen⟩
      rw [List.zip_nil_left, List.forall₂_nil_left_iff] at h
      rw [h, List.length_eq_zero_iff.mp hlen]
      exact ⟨rfl, rfl⟩
  | cons a l ih =>
    rw [collect, eval_bind_iff]
    constructor
    · rintro (⟨e, -, he⟩ | ⟨b, tr₁, tr₂, rfl, h₁, h₂⟩)
      · cases he
      · rcases eval_bind_iff.mp h₂ with ⟨e, -, he⟩ | ⟨bs', tr₃, tr₄, rfl, h₃, h₄⟩
        · cases he
        · obtain ⟨rfl, hbs⟩ := h₄
          cases hbs
          obtain ⟨segments, rfl, hseg, hlen⟩ := ih.mp h₃
          exact ⟨tr₁ :: segments, by simp, List.Forall₂.cons h₁ hseg, by simp [hlen]⟩
    · rintro ⟨segments, rfl, hseg, hlen⟩
      cases bs with
      | nil => simp at hlen
      | cons b bs =>
        rw [List.zip_cons_cons, List.forall₂_cons_left_iff] at hseg
        obtain ⟨seg, segments, hb, hseg, rfl⟩ := hseg
        refine Or.inr ⟨b, seg, segments.flatten, by simp, hb, eval_bind_iff.mpr (Or.inr ?_)⟩
        refine ⟨bs, segments.flatten, [], (List.append_nil _).symm, ih.mpr ?_, rfl, rfl⟩
        exact ⟨segments, rfl, hseg, by simpa using hlen⟩

/-- What holds of every event of the rounds holds of every event of the loop. -/
theorem Eval.forall_mem_collect {P : Event Res → Prop} {f : α → Program Res ε β} {l : List α}
    {tr : List (Event Res)} {out : Except ε (List β)}
    (hf : ∀ a tr out, (f a).Eval tr out → ∀ x ∈ tr, P x) (h : (collect f l).Eval tr out) :
    ∀ x ∈ tr, P x := by
  induction l generalizing tr out with
  | nil =>
    obtain ⟨rfl, -⟩ := h
    exact fun x hx ↦ absurd hx List.not_mem_nil
  | cons a l ih =>
    rcases eval_bind_iff.mp h with ⟨e, he, -⟩ | ⟨b, tr₁, tr₂, rfl, h₁, h₂⟩
    · exact hf a tr _ he
    · have htail : ∀ x ∈ tr₂, P x := by
        rcases eval_bind_iff.mp h₂ with ⟨e, he, -⟩ | ⟨bs, tr₃, tr₄, rfl, h₃, rfl, -⟩
        · exact ih he
        · simpa using ih h₃
      exact List.forall_mem_append.mpr ⟨hf a tr₁ _ h₁, htail⟩

/-- If a round rejects exactly when it meets a fatal event, so does the loop. -/
theorem eval_collect_error_iff {Fatal : Event Res → Prop} {f : α → Program Res ε β} {l : List α}
    {tr : List (Event Res)} {out : Except ε (List β)}
    (hf : ∀ a tr out, (f a).Eval tr out → ((∃ x ∈ tr, Fatal x) ↔ ∃ e, out = .error e))
    (h : (collect f l).Eval tr out) : (∃ x ∈ tr, Fatal x) ↔ ∃ e, out = .error e := by
  induction l generalizing tr out with
  | nil =>
    obtain ⟨rfl, rfl⟩ := h
    simp
  | cons a l ih =>
    rcases eval_bind_iff.mp h with ⟨e, he, rfl⟩ | ⟨b, tr₁, tr₂, rfl, h₁, h₂⟩
    · exact iff_of_true ((hf a tr _ he).mpr ⟨e, rfl⟩) ⟨e, rfl⟩
    · have hhead : ¬∃ x ∈ tr₁, Fatal x := fun hx ↦ by simpa using (hf a tr₁ _ h₁).mp hx
      have hsplit : (∃ x ∈ tr₁ ++ tr₂, Fatal x) ↔ ∃ x ∈ tr₂, Fatal x := by
        simp only [List.mem_append, or_and_right, exists_or, or_iff_right hhead]
      rw [hsplit]
      rcases eval_bind_iff.mp h₂ with ⟨e, he, rfl⟩ | ⟨bs, tr₃, tr₄, rfl, h₃, rfl, rfl⟩
      · exact iff_of_true ((ih he).mpr ⟨e, rfl⟩) ⟨e, rfl⟩
      · rw [List.append_nil, ih h₃]
        simp

theorem eval_ite {c : Prop} [Decidable c] {x y : Program Res ε α} {tr : List (Event Res)}
    {out : Except ε α} (h : (if c then x else y).Eval tr out) :
    c ∧ x.Eval tr out ∨ ¬c ∧ y.Eval tr out := by
  split at h
  · next hc => exact Or.inl ⟨hc, h⟩
  · next hc => exact Or.inr ⟨hc, h⟩

/-- **Determinacy.** What a program did up to any point of a trace, and how it settled, is
determined by the trace. -/
theorem Eval.eq_of_prefix {x : Program Res ε α} {tr tr₁ tr₂ : List (Event Res)}
    {a b : Except ε α} (h₁ : x.Eval tr₁ a) (h₂ : x.Eval tr₂ b) (hp₁ : tr₁ <+: tr)
    (hp₂ : tr₂ <+: tr) : tr₁ = tr₂ ∧ a = b := by
  induction x generalizing tr tr₁ tr₂ with
  | pure _ =>
    obtain ⟨rfl, rfl⟩ := h₁
    obtain ⟨rfl, rfl⟩ := h₂
    exact ⟨rfl, rfl⟩
  | throw _ =>
    obtain ⟨rfl, rfl⟩ := h₁
    obtain ⟨rfl, rfl⟩ := h₂
    exact ⟨rfl, rfl⟩
  | call op k ih =>
    obtain ⟨r₁, tr₁, rfl, h₁⟩ := h₁
    obtain ⟨r₂, tr₂, rfl, h₂⟩ := h₂
    obtain ⟨l₁, rfl⟩ := hp₁
    obtain ⟨hr, htail⟩ := List.cons_prefix_cons.mp hp₂
    obtain rfl : r₂ = r₁ := by simpa using hr
    obtain ⟨rfl, rfl⟩ := ih r₂ h₁ h₂ (List.prefix_append tr₁ l₁) htail
    exact ⟨rfl, rfl⟩

/-! ## Execution against a handler -/

/-- Run a program against a deterministic handler with its own state. -/
def run {σ : Type} (handler : (op : Op) → σ → Res op × σ) :
    Program Res ε α → σ → List (Event Res) × Except ε α × σ
  | pure a, s => ([], .ok a, s)
  | throw e, s => ([], .error e, s)
  | call op k, s =>
    let (r, s) := handler op s
    let (tr, out) := (k r).run handler s
    (⟨op, r⟩ :: tr, out)

/-- A run is one of the traces, so every program settles against every handler. -/
theorem eval_run {σ : Type} (handler : (op : Op) → σ → Res op × σ) (x : Program Res ε α) (s : σ) :
    x.Eval (x.run handler s).1 (x.run handler s).2.1 := by
  induction x generalizing s with
  | pure a => exact ⟨rfl, rfl⟩
  | throw e => exact ⟨rfl, rfl⟩
  | call op k ih => exact Eval.call (ih _ _)

/-! ## In the middle of a trace -/

/-- Answered by the trace, the program `x` has come to what is left of it. -/
inductive After (x : Program Res ε α) : List (Event Res) → Program Res ε α → Prop
  | start : After x [] x
  | answered {tr : List (Event Res)} {op : Op} {k : Res op → Program Res ε α} (r : Res op) :
      After x tr (.call op k) → After x (tr ++ [⟨op, r⟩]) (k r)

theorem After.eval {x y : Program Res ε α} {tr tr' : List (Event Res)} {out : Except ε α}
    (h : x.After tr y) (hy : y.Eval tr' out) : x.Eval (tr ++ tr') out := by
  induction h generalizing tr' with
  | start => exact hy
  | answered r _ ih =>
    rw [List.append_assoc]
    exact ih (Eval.call hy)

theorem eval_ofExcept (out : Except ε α) : (ofExcept out : Program Res ε α).Eval [] out :=
  eval_ofExcept_iff.mpr ⟨rfl, rfl⟩

/-- The trace of a process is the beginning of a whole one. -/
theorem After.exists_eval [∀ op, Nonempty (Res op)] {x y : Program Res ε α}
    {tr : List (Event Res)} (h : x.After tr y) : ∃ tr' out, x.Eval (tr ++ tr') out :=
  ⟨_, _, h.eval (y.eval_run (fun _ u ↦ (Classical.arbitrary _, u)) ())⟩

end Program

end Async
