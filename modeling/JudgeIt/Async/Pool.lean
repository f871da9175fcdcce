import JudgeIt.Async.Environment
import JudgeIt.Data.Table
import JudgeIt.Transition.Run

/-!
# Pools of concurrent programs

A server works on many requests at once. Each request runs a program of its own, and between two
awaits of one of them anything may happen to the others. A pool is the list of requests accepted so
far, each with what is left of its program, over one shared state; a step either accepts a request
or answers one call of one of them, in an environment of the shared state. Every interleaving at the
granularity of awaited calls is a run.

Each process keeps the trace of its answered calls. Nothing reads it; it is what ties a process seen
in the middle of a run to the semantics of its program, through `Program.After`. Three rules come
out of that: an invariant of the shared state needs to be checked for the calls the programs really
make, a collection in the shared state that grows only by answered calls is the union of what the
processes contributed, and serving requests one after the other is a run.
-/

namespace Async

open Transition

variable {Op : Type} {Res : Op → Type} {ε α σ ι β : Type}

/-- A request being served, with the calls answered so far and what is left of its program. -/
structure Process (ι : Type) {Op : Type} (Res : Op → Type) (ε α : Type) where
  request : ι
  trace : List (Event Res)
  rest : Program Res ε α

/-- The program of the process has settled. -/
def Process.Settled (p : Process ι Res ε α) : Prop := ∃ out, p.rest = .ofExcept out

/-- The call the process waits for. -/
def Process.pending (p : Process ι Res ε α) : Option Op :=
  match p.rest with
  | .call op _ => some op
  | _ => none

theorem Process.pending_eq_some_iff {p : Process ι Res ε α} {op : Op} :
    p.pending = some op ↔ ∃ k, p.rest = .call op k := by
  rw [pending]
  constructor
  · intro h
    split at h
    · next op' k hk =>
      cases h
      exact ⟨k, hk⟩
    · cases h
  · rintro ⟨k, hk⟩
    rw [hk]

/-- The requests accepted so far, in order, and what they share. -/
structure Pool (ι : Type) {Op : Type} (Res : Op → Type) (ε α σ : Type) where
  processes : List (Process ι Res ε α)
  shared : σ

namespace Pool

/-- One step, by the event that triggers it. -/
inductive Action (ι : Type) {Op : Type} (Res : Op → Type)
  /-- A request is accepted. -/
  | accept (request : ι)
  /-- A call of process `i` is answered. -/
  | answer (i : ℕ) (event : Event Res)

/-- Process `i` gets a response. -/
def answered (p : Pool ι Res ε α σ) (i : ℕ) (event : Event Res) (rest : Program Res ε α)
    (shared : σ) : Pool ι Res ε α σ where
  processes := p.processes.modify i fun proc ↦
    { proc with trace := proc.trace ++ [event], rest := rest }
  shared := shared

/-- The pool with one more request. -/
def accepted (p : Pool ι Res ε α σ) (program : ι → Program Res ε α) (request : ι) :
    Pool ι Res ε α σ :=
  { p with processes := p.processes ++ [⟨request, [], program request⟩] }

/-- The steps of a pool whose requests run `program` and whose calls are answered by `E`. -/
inductive Step (program : ι → Program Res ε α) (E : Env σ Res) :
    Pool ι Res ε α σ → Action ι Res → Pool ι Res ε α σ → Prop
  | accept {p : Pool ι Res ε α σ} (request : ι) :
      Step program E p (.accept request) (p.accepted program request)
  | answer {p : Pool ι Res ε α σ} {i : ℕ} {request : ι} {tr : List (Event Res)} {op : Op}
      {k : Res op → Program Res ε α} {r : Res op} {shared : σ} :
      p.processes[i]? = some ⟨request, tr, .call op k⟩ → E p.shared op r shared →
      Step program E p (.answer i ⟨op, r⟩) (p.answered i ⟨op, r⟩ (k r) shared)

/-- The runs from a shared state, with no request yet. -/
abbrev Runs (program : ι → Program Res ε α) (E : Env σ Res) (s₀ : σ) :=
  Transition.Run (Step program E) ⟨[], s₀⟩

variable {program : ι → Program Res ε α} {E : Env σ Res} {s₀ s' : σ} {p p' : Pool ι Res ε α σ}
  {a : Action ι Res} {l : List (Pool ι Res ε α σ × Action ι Res)}

theorem exists_answered {i : ℕ} {request : ι} {tr : List (Event Res)} {x : Program Res ε α}
    (hi : p.processes[i]? = some ⟨request, tr, x⟩) : ∃ l₁ l₂,
    p.processes = l₁ ++ ⟨request, tr, x⟩ :: l₂ ∧ ∀ event rest (s : σ),
      (p.answered i event rest s).processes = l₁ ++ ⟨request, tr ++ [event], rest⟩ :: l₂ := by
  obtain ⟨l₁, l₂, hl, hmod⟩ := List.exists_modify hi
  exact ⟨l₁, l₂, hl, fun event rest s ↦ hmod _⟩

@[simp] theorem shared_answered {i : ℕ} {event : Event Res} {rest : Program Res ε α} {s : σ} :
    (p.answered i event rest s).shared = s := rfl

theorem getElem?_accepted {i : ℕ} {request : ι} {proc : Process ι Res ε α} :
    (p.accepted program request).processes[i]? = some proc ↔ p.processes[i]? = some proc ∨
      i = p.processes.length ∧ proc = ⟨request, [], program request⟩ := by
  rw [accepted, List.getElem?_append_singleton]
  split
  · next hi =>
    subst hi
    simp [eq_comm]
  · next hi => simp [hi]

theorem getElem?_answered {i j : ℕ} {event : Event Res} {rest : Program Res ε α} {s : σ} :
    (p.answered i event rest s).processes[j]? = if i = j then p.processes[j]?.map fun proc ↦
      { proc with trace := proc.trace ++ [event], rest := rest } else p.processes[j]? := by
  rw [answered, List.getElem?_modify]
  split <;> simp

/-! ## What a process has done -/

/-- Process `i` has made a call with an answer of this kind. -/
def Did (P : Event Res → Prop) (p : Pool ι Res ε α σ) (i : ℕ) : Prop :=
  ∃ proc, p.processes[i]? = some proc ∧ ∃ x ∈ proc.trace, P x

theorem not_did_nil {P : Event Res → Prop} {s : σ} {i : ℕ} :
    ¬(⟨[], s⟩ : Pool ι Res ε α σ).Did P i := by
  rintro ⟨proc, hproc, -⟩
  cases hproc

theorem did_accepted {P : Event Res → Prop} {request : ι} {i : ℕ} :
    (p.accepted program request).Did P i ↔ p.Did P i := by
  constructor
  · rintro ⟨proc, hproc, x, hx, hP⟩
    rcases getElem?_accepted.mp hproc with h | ⟨-, rfl⟩
    · exact ⟨proc, h, x, hx, hP⟩
    · cases hx
  · rintro ⟨proc, hproc, hdid⟩
    exact ⟨proc, getElem?_accepted.mpr (Or.inl hproc), hdid⟩

theorem did_answered {P : Event Res → Prop} {i k : ℕ} {request : ι} {tr : List (Event Res)}
    {x rest : Program Res ε α} {event : Event Res} {s : σ}
    (hk : p.processes[k]? = some ⟨request, tr, x⟩) :
    (p.answered k event rest s).Did P i ↔ p.Did P i ∨ i = k ∧ P event := by
  rw [Did, getElem?_answered, Did]
  by_cases hi : k = i
  · subst hi
    simp only [if_true, hk, Option.map_some, Option.some.injEq, exists_eq_left', List.mem_append,
      List.mem_singleton, or_and_right, exists_or, exists_eq_left, true_and]
  · simp [hi, Ne.symm hi]

/-! ## Processes run their programs -/

/-- Every process has come to where its trace takes its program. -/
def Valid (program : ι → Program Res ε α) (p : Pool ι Res ε α σ) : Prop :=
  ∀ proc ∈ p.processes, (program proc.request).After proc.trace proc.rest

theorem Valid.step (h : Valid program p) (hs : Step program E p a p') : Valid program p' := by
  cases hs with
  | accept request =>
    intro proc hproc
    rcases List.mem_append.mp hproc with hproc | hproc
    · exact h proc hproc
    · rw [List.mem_singleton.mp hproc]
      exact .start
  | @answer i request tr op k r shared hi _ =>
    obtain ⟨l₁, l₂, hl, hl'⟩ := exists_answered hi
    intro proc hproc
    rw [hl'] at hproc
    rcases List.mem_append.mp hproc with hproc | hproc
    · exact h proc (by simp [hl, hproc])
    rcases List.mem_cons.mp hproc with rfl | hproc
    · exact .answered r (h _ (List.mem_of_getElem? hi))
    · exact h proc (by simp [hl, hproc])

/-- **Processes run their programs.** -/
theorem valid (hrun : Runs program E s₀ l p) : Valid program p :=
  hrun.invariant' (by simp [Valid]) fun _ _ _ h hs ↦ h.step hs

theorem Valid.eval_of_rest (h : Valid program p) {proc : Process ι Res ε α}
    (hproc : proc ∈ p.processes) {out : Except ε α} (hout : proc.rest = .ofExcept out) :
    (program proc.request).Eval proc.trace out := by
  have heval := (h proc hproc).eval (hout ▸ Program.eval_ofExcept out)
  rwa [List.append_nil] at heval

theorem Valid.eval (h : Valid program p) {proc : Process ι Res ε α} (hproc : proc ∈ p.processes)
    (hsettled : proc.Settled) : ∃ out, (program proc.request).Eval proc.trace out :=
  hsettled.imp fun _ ↦ h.eval_of_rest hproc

theorem Valid.pending [∀ op, Nonempty (Res op)] (h : Valid program p) {proc : Process ι Res ε α}
    (hproc : proc ∈ p.processes) {op : Op} (hop : proc.pending = some op) (r : Res op) :
    ∃ rest out, (program proc.request).Eval (proc.trace ++ ⟨op, r⟩ :: rest) out := by
  obtain ⟨k, hk⟩ := Process.pending_eq_some_iff.mp hop
  obtain ⟨rest, out, heval⟩ := (Program.After.answered r (hk ▸ h proc hproc)).exists_eval
  exact ⟨rest, out, by simpa using heval⟩

/-! ## Invariants of the shared state and of the processes -/

theorem Valid.call [∀ op, Nonempty (Res op)] {P : ι → Event Res → Prop} (h : Valid program p)
    (hP : ∀ request tr out, (program request).Eval tr out → ∀ x ∈ tr, P request x) {i : ℕ}
    {request : ι} {tr : List (Event Res)} {op : Op} {k : Res op → Program Res ε α}
    (hi : p.processes[i]? = some ⟨request, tr, .call op k⟩) (r : Res op) : P request ⟨op, r⟩ := by
  obtain ⟨tr', out, heval⟩ := (Program.After.answered r
    (h _ (List.mem_of_getElem? hi))).exists_eval
  exact hP _ _ _ heval _ (by simp)

/-- **The local rule.** What a process knows of the shared state from its own calls, and no other
process can undo, holds whenever it is looked at: it holds of a process that has made no call, is
kept by its own answers, and by everyone else's. -/
theorem local_invariant [∀ op, Nonempty (Res op)] {I : σ → Prop}
    {J : ι → List (Event Res) → σ → Prop} {P : ι → Event Res → Prop}
    (hrun : Runs program E s₀ l p) (h₀ : I s₀)
    (hP : ∀ request tr out, (program request).Eval tr out → ∀ x ∈ tr, P request x)
    (hI : ∀ request s op r s', P request ⟨op, r⟩ → E s op r s' → I s → I s')
    (hnil : ∀ request s, I s → J request [] s)
    (hown : ∀ request tr s op r s', P request ⟨op, r⟩ → E s op r s' → I s → J request tr s →
      J request (tr ++ [⟨op, r⟩]) s')
    (hframe : ∀ request other tr s op r s', P other ⟨op, r⟩ → E s op r s' → I s →
      J request tr s → J request tr s') :
    I p.shared ∧ ∀ proc ∈ p.processes, J proc.request proc.trace p.shared := by
  refine (hrun.invariant' (I := fun p ↦ Valid program p ∧ I p.shared ∧
    ∀ proc ∈ p.processes, J proc.request proc.trace p.shared)
    ⟨by simp [Valid], h₀, by simp⟩ ?_).2
  rintro p a p' ⟨hvalid, hIp, hJ⟩ hs
  refine ⟨hvalid.step hs, ?_⟩
  cases hs with
  | accept request =>
    refine ⟨hIp, fun proc hproc ↦ ?_⟩
    rcases List.mem_append.mp hproc with hproc | hproc
    · exact hJ proc hproc
    · rw [List.mem_singleton.mp hproc]
      exact hnil request p.shared hIp
  | @answer i request tr op k r shared hi hEs =>
    have hcall : P request ⟨op, r⟩ := hvalid.call hP hi r
    obtain ⟨l₁, l₂, hl, hl'⟩ := exists_answered hi
    rw [hl] at hJ
    refine ⟨hI _ _ _ _ _ hcall hEs hIp, fun proc hproc ↦ ?_⟩
    -- the answered process by its own answer, every other one by the frame
    have hother : ∀ proc ∈ l₁ ++ ⟨request, tr, .call op k⟩ :: l₂,
        J proc.request proc.trace shared := fun proc hproc ↦
      hframe _ _ _ _ _ _ _ hcall hEs hIp (hJ proc hproc)
    rw [hl'] at hproc
    rcases List.mem_append.mp hproc with hproc | hproc
    · exact hother proc (List.mem_append_left _ hproc)
    rcases List.mem_cons.mp hproc with rfl | hproc
    · exact hown _ _ _ _ _ _ hcall hEs hIp (hJ ⟨request, tr, .call op k⟩ (by simp))
    · exact hother proc (by simp [hproc])

/-- **The invariant rule.** It is enough that the invariant survives the calls that occur in the
traces of the programs. -/
theorem shared_invariant [∀ op, Nonempty (Res op)] {I : σ → Prop} {P : Event Res → Prop}
    (hrun : Runs program E s₀ l p) (h₀ : I s₀)
    (hP : ∀ request tr out, (program request).Eval tr out → ∀ x ∈ tr, P x)
    (hE : ∀ s op r s', P ⟨op, r⟩ → E s op r s' → I s → I s') : I p.shared :=
  (local_invariant (J := fun _ _ _ ↦ True) (P := fun _ ↦ P) hrun h₀ hP
    (fun _ s op r s' ↦ hE s op r s') (fun _ _ _ ↦ trivial) (fun _ _ _ _ _ _ _ _ _ _ ↦ trivial)
    fun _ _ _ _ _ _ _ _ _ _ _ ↦ trivial).1

/-! ## Collections in the shared state -/

/-- What the answered calls of all processes contribute. -/
def collect (f : Event Res → Option β) (p : Pool ι Res ε α σ) : List β :=
  p.processes.flatMap fun proc ↦ proc.trace.filterMap f

theorem collect_accepted (f : Event Res → Option β) (p : Pool ι Res ε α σ)
    (program : ι → Program Res ε α) (request : ι) :
    (p.accepted program request).collect f = p.collect f := by
  simp [collect, accepted]

theorem collect_answered (f : Event Res → Option β) {i : ℕ} {request : ι} {tr : List (Event Res)}
    {x rest : Program Res ε α} {event : Event Res} {shared : σ}
    (hi : p.processes[i]? = some ⟨request, tr, x⟩) :
    ((p.answered i event rest shared).collect f).Perm (p.collect f ++ (f event).toList) := by
  obtain ⟨l₁, l₂, hl, hl'⟩ := exists_answered hi
  have hsingle : [event].filterMap f = (f event).toList := by
    cases he : f event <;> simp [he]
  rw [collect, hl', collect, hl]
  simp only [List.flatMap_append, List.flatMap_cons, List.filterMap_append, hsingle,
    List.append_assoc]
  exact (List.perm_append_comm.append_left _).append_left _

/-- **The union rule.** A collection that grows only by what answered calls contribute is, up to
order, the union of all contributions. -/
theorem collect_perm {g : σ → List β} {f : Event Res → Option β}
    (hrun : Runs program E s₀ l p) (h₀ : g s₀ = [])
    (hE : ∀ s op r s', E s op r s' → (g s').Perm (g s ++ (f ⟨op, r⟩).toList)) :
    (g p.shared).Perm (p.collect f) := by
  refine hrun.invariant' (I := fun p ↦ (g p.shared).Perm (p.collect f)) ?_ ?_
  · rw [h₀]
    exact List.Perm.refl _
  rintro p a p' hp hs
  cases hs with
  | accept request =>
    rw [collect_accepted]
    exact hp
  | answer hi hEs =>
    exact (hE _ _ _ _ hEs).trans ((hp.append_right _).trans (collect_answered f hi).symm)

/-! ## Calls answered in the run -/

/-- A call is in the trace of a process exactly when a step of the run answered it. -/
theorem mem_trace_iff (hrun : Runs program E s₀ l p) {event : Event Res} :
    (∃ proc ∈ p.processes, event ∈ proc.trace) ↔ ∃ x ∈ l, ∃ i, x.2 = .answer i event := by
  induction hrun with
  | nil => simp
  | @snoc l p p' a _ hs ih =>
    have hsnoc : (∃ x ∈ l ++ [(p, a)], ∃ i, x.2 = .answer i event) ↔
        (∃ x ∈ l, ∃ i, x.2 = .answer i event) ∨ ∃ i, a = .answer i event := by
      simp [or_and_right, exists_or]
    rw [hsnoc, ← ih]
    cases hs with
    | accept request => simp [accepted, or_and_right, exists_or]
    | @answer i request tr op k r shared hi _ =>
      obtain ⟨l₁, l₂, hl, hl'⟩ := exists_answered hi
      have hevent : (∃ j, (.answer i ⟨op, r⟩ : Action ι Res) = .answer j event) ↔
          event = ⟨op, r⟩ := by simp [eq_comm]
      rw [hl', hl, hevent]
      simp only [List.mem_append, List.mem_cons, List.not_mem_nil, or_false, or_and_right,
        exists_or, exists_eq_left]
      constructor
      · rintro (h | (h | h) | h)
        · exact Or.inl (Or.inl h)
        · exact Or.inl (Or.inr (Or.inl h))
        · exact Or.inr h
        · exact Or.inl (Or.inr (Or.inr h))
      · rintro ((h | h | h) | h)
        · exact Or.inl h
        · exact Or.inr (Or.inl (Or.inl h))
        · exact Or.inr (Or.inr h)
        · exact Or.inr (Or.inl (Or.inr h))

theorem forall_mem_trace {Q : Event Res → Prop} (hrun : Runs program E s₀ l p)
    (hE : ∀ s op r s', E s op r s' → Q ⟨op, r⟩) : ∀ proc ∈ p.processes, ∀ x ∈ proc.trace, Q x := by
  refine hrun.invariant' (I := fun p ↦ ∀ proc ∈ p.processes, ∀ x ∈ proc.trace, Q x)
    (by simp) ?_
  rintro p a p' hp hs
  cases hs with
  | accept request => simpa [accepted, or_imp, forall_and] using hp
  | @answer i request tr op k r shared hi hEs =>
    obtain ⟨l₁, l₂, hl, hl'⟩ := exists_answered hi
    rw [hl] at hp
    rw [hl']
    simp only [List.forall_mem_append, List.forall_mem_cons] at hp ⊢
    exact ⟨hp.1, ⟨hp.2.1, hE _ _ _ _ hEs, by simp⟩, hp.2.2⟩

/-! ## One request after the other -/

/-- Serving a request to its end, with nothing else going on, extends a run. -/
theorem exists_run_serve (hrun : Runs program E s₀ l p) {request : ι} {tr : List (Event Res)}
    {out : Except ε α} (h : (program request).Eval tr out) (hs : E.Steps p.shared tr s') :
    ∃ l', Runs program E s₀ (l ++ l') ⟨p.processes ++ [⟨request, tr, .ofExcept out⟩], s'⟩ := by
  have hgo : ∀ (x : Program Res ε α) (tr₀ tr : List (Event Res)) (l : List (Pool ι Res ε α σ ×
      Action ι Res)) (s : σ), Runs program E s₀ l ⟨p.processes ++ [⟨request, tr₀, x⟩], s⟩ →
      x.Eval tr out → E.Steps s tr s' → ∃ l', Runs program E s₀ (l ++ l')
        ⟨p.processes ++ [⟨request, tr₀ ++ tr, .ofExcept out⟩], s'⟩ := by
    intro x
    induction x with
    | pure a =>
      rintro tr₀ tr l s hrun ⟨rfl, rfl⟩ rfl
      exact ⟨[], by simpa [Program.ofExcept] using hrun⟩
    | throw e =>
      rintro tr₀ tr l s hrun ⟨rfl, rfl⟩ rfl
      exact ⟨[], by simpa [Program.ofExcept] using hrun⟩
    | call op k ih =>
      rintro tr₀ tr l s hrun ⟨r, tr, rfl, h⟩ ⟨s₁, hE, hs⟩
      have hlast : (p.processes ++ [(⟨request, tr₀, .call op k⟩ : Process ι Res ε α)])[
          p.processes.length]? = some ⟨request, tr₀, .call op k⟩ := by simp
      have hstep := hrun.snoc (.answer hlast hE)
      obtain ⟨l', hl'⟩ := ih r (tr₀ ++ [⟨op, r⟩]) tr _ s₁ (by simpa [answered] using hstep) h hs
      exact ⟨_ :: l', by simpa using hl'⟩
  obtain ⟨l', hl'⟩ := hgo _ [] tr _ p.shared (hrun.snoc (.accept request)) h hs
  exact ⟨_ :: l', by simpa using hl'⟩

/-! ## Following a schedule -/

variable {τ : Type}

/-- The pool over a part of what is shared. -/
def mapShared (g : τ → σ) (p : Pool ι Res ε α τ) : Pool ι Res ε α σ := ⟨p.processes, g p.shared⟩

/-- The next call of process `i` is answered by the handler. -/
def turn (handler : (op : Op) → τ → Res op × τ) (p : Pool ι Res ε α τ) (i : ℕ) :
    Pool ι Res ε α τ :=
  match p.processes[i]? with
  | some ⟨_, _, .call op k⟩ =>
    p.answered i ⟨op, (handler op p.shared).1⟩ (k (handler op p.shared).1) (handler op p.shared).2
  | _ => p

/-- The steps of a schedule, each with the pool before it. -/
def turns (handler : (op : Op) → τ → Res op × τ) (g : τ → σ) :
    Pool ι Res ε α τ → List ℕ → List (Pool ι Res ε α σ × Action ι Res)
  | _, [] => []
  | p, i :: schedule =>
    match p.processes[i]? with
    | some ⟨_, _, .call op _⟩ => (p.mapShared g, .answer i ⟨op, (handler op p.shared).1⟩) ::
        turns handler g (turn handler p i) schedule
    | _ => turns handler g (turn handler p i) schedule

theorem meets_turns_cons {handler : (op : Op) → τ → Res op × τ} {g : τ → σ} {p : Pool ι Res ε α τ}
    {ok : Pool ι Res ε α σ → Action ι Res → Prop} {i : ℕ} {schedule : List ℕ} {request : ι}
    {tr : List (Event Res)} {op : Op} {k : Res op → Program Res ε α}
    (hi : p.processes[i]? = some ⟨request, tr, .call op k⟩)
    (hok : ok (p.mapShared g) (.answer i ⟨op, (handler op p.shared).1⟩))
    (hrest : Meets ok (turns handler g (turn handler p i) schedule)) :
    Meets ok (turns handler g p (i :: schedule)) := by
  rw [turns, hi]
  exact List.forall_mem_cons.mpr ⟨hok, hrest⟩

/-- A handler whose responses the environment allows can answer calls in any order. -/
theorem run_turns {handler : (op : Op) → τ → Res op × τ} {g : τ → σ}
    (h : ∀ op t, E (g t) op (handler op t).1 (g (handler op t).2)) {p : Pool ι Res ε α τ}
    (hrun : Runs program E s₀ l (p.mapShared g)) (schedule : List ℕ) :
    Runs program E s₀ (l ++ turns handler g p schedule)
      ((schedule.foldl (turn handler) p).mapShared g) := by
  induction schedule generalizing p l with
  | nil => simpa [turns] using hrun
  | cons i schedule ih =>
    rw [turns, List.foldl_cons]
    split
    · next request tr op k hi =>
      have hturn : turn handler p i = p.answered i ⟨op, (handler op p.shared).1⟩
          (k (handler op p.shared).1) (handler op p.shared).2 := by
        rw [turn, hi]
      rw [List.append_cons]
      refine ih ?_
      rw [hturn]
      exact hrun.snoc (.answer (p := p.mapShared g) hi (h op p.shared))
    · next hno =>
      have hturn : turn handler p i = p := by
        rw [turn]
        split
        · next request tr op k hi => exact absurd hi (hno request tr op k)
        · rfl
      rw [hturn]
      exact ih hrun

end Pool

end Async
