import JudgeIt.Worker.Lifecycle

/-!
# What each handler has done so far

Two accounts of one life. The ledger counts: how many grants, releases and completions a handler has
on record is determined by its phase, none before its box is granted, one grant while it holds the
box, and one of each, for the same box, once it is past its `finally` block; a handler that returned
early on an empty message stays in the middle, with a box granted and never released. The second
account is about the judge: a handler that judges has come to where its answered calls take the
judge of its payload, and one that is past its `finally` block has judged to the end.
-/

namespace JudgeIt

open Async Transition

variable {Op : Type} {Res : Op → Type} {ε P V ω : Type}

namespace Happened

/-- The box granted in this event. -/
def grantedBox : Happened Res ε V → Option ℕ
  | granted _ b => some b
  | called .. | judged .. | released .. | completed _ => none

/-- The box released in this event. -/
def releasedBox : Happened Res ε V → Option ℕ
  | released _ b => some b
  | called .. | judged .. | granted .. | completed _ => none

/-- An offset is completed in this event. -/
def isCompleted : Happened Res ε V → Bool
  | completed _ => true
  | called .. | judged .. | granted .. | released .. => false

/-- The call answered in this event. -/
def answered : Happened Res ε V → Option (Event Res)
  | called _ e => some e
  | granted .. | judged .. | released .. | completed _ => none

/-- The outcome of the judge that settled in this event. -/
def outcome : Happened Res ε V → Option (Except ε V)
  | judged _ out => some out
  | granted .. | called .. | released .. | completed _ => none

end Happened

section CallsIn

variable {i : ℕ} {x : Event Res} {h h' : List (Happened Res ε V)}

/-- The calls of handler `i` in a part of the record. -/
def callsIn (i : ℕ) (h : List (Happened Res ε V)) : List (Event Res) :=
  (h.filter (·.handler = i)).filterMap (·.answered)

theorem callsIn_append : callsIn i (h ++ h') = callsIn i h ++ callsIn i h' := by
  rw [callsIn, List.filter_append, List.filterMap_append, callsIn, callsIn]

theorem mem_callsIn_iff : x ∈ callsIn i h ↔ .called i x ∈ h := by
  rw [callsIn, List.mem_filterMap]
  constructor
  · rintro ⟨e, he, hx⟩
    obtain ⟨hmem, hi⟩ := List.mem_filter.mp he
    cases e with
    | called j y =>
      obtain rfl : j = i := of_decide_eq_true hi
      cases hx
      exact hmem
    | granted j b => cases hx
    | judged j out => cases hx
    | released j b => cases hx
    | completed j => cases hx
  · exact fun hx ↦ ⟨_, List.mem_filter.mpr ⟨hx, by simp [Happened.handler]⟩, rfl⟩

theorem callsIn_eq_nil (h : ∀ i x, (.called i x : Happened Res ε V) ∉ h') : callsIn i h' = [] :=
  List.eq_nil_iff_forall_not_mem.mpr fun x hx ↦ h i x (mem_callsIn_iff.mp hx)

end CallsIn

/-- The grants, releases and completions a handler in the given phase has on record. -/
def Phase.Accounts : Option (Phase Res ε V) → List ℕ → List ℕ → ℕ → Prop
  | none, grants, releases, completions | some .waiting, grants, releases, completions =>
    grants = [] ∧ releases = [] ∧ completions = 0
  | some (.granted b), grants, releases, completions
  | some (.judging b _), grants, releases, completions
  | some (.skipped b), grants, releases, completions =>
    grants = [b] ∧ releases = [] ∧ completions = 0
  | some .committing, grants, releases, completions
  | some .settled, grants, releases, completions =>
    ∃ b, grants = [b] ∧ releases = [b] ∧ completions = 1

/-- What a handler has on record about its judge: nothing before it judges, then the calls of a
judge that has come so far, and in the end a whole trace with its outcome, unless the message could
not be parsed. -/
def Handler.Follows (d : Deployment Res ε P V) :
    Option (Handler Res ε P V) → List ℕ → List (Event Res) → List (Except ε V) → Prop
  | none, _, calls, outcomes | some ⟨_, .waiting⟩, _, calls, outcomes
  | some ⟨_, .granted _⟩, _, calls, outcomes | some ⟨_, .skipped _⟩, _, calls, outcomes =>
    calls = [] ∧ outcomes = []
  | some ⟨m, .judging b x⟩, _, calls, outcomes =>
    outcomes = [] ∧ ∃ payload, m.value = some (.ok payload) ∧
      (d.judgeSubmission payload b).After calls x
  | some ⟨m, .committing⟩, grants, calls, outcomes
  | some ⟨m, .settled⟩, grants, calls, outcomes =>
    (calls = [] ∧ outcomes = [] ∧ ∃ e, m.value = some (.error e)) ∨
      ∃ b payload out, grants = [b] ∧ outcomes = [out] ∧ m.value = some (.ok payload) ∧
        (d.judgeSubmission payload b).Eval calls out

/-- The counts of one life agree with the phase. -/
def LifeAccounts (h : Option (Handler Res ε P V)) (r : List (Happened Res ε V)) : Prop :=
  Phase.Accounts (h.map Handler.phase) (r.filterMap (·.grantedBox)) (r.filterMap (·.releasedBox))
    (r.countP (·.isCompleted))

/-- The judge of one life has been run. -/
def LifeFollows (d : Deployment Res ε P V) (h : Option (Handler Res ε P V))
    (r : List (Happened Res ε V)) : Prop :=
  Handler.Follows d h (r.filterMap (·.grantedBox)) (r.filterMap (·.answered))
    (r.filterMap (·.outcome))

namespace ManagerState

/-- The boxes granted to handler `i`, in order. -/
def grants (s : ManagerState Res ε P V ω) (i : ℕ) : List ℕ :=
  (s.recordOf i).filterMap (·.grantedBox)

/-- The boxes released by handler `i`, in order. -/
def releases (s : ManagerState Res ε P V ω) (i : ℕ) : List ℕ :=
  (s.recordOf i).filterMap (·.releasedBox)

/-- How often handler `i` has called `offsetTracker.complete`. -/
def completions (s : ManagerState Res ε P V ω) (i : ℕ) : ℕ := (s.recordOf i).countP (·.isCompleted)

/-- The calls of the judge of handler `i` that were answered, in order. -/
def calls (s : ManagerState Res ε P V ω) (i : ℕ) : List (Event Res) := callsIn i s.history

/-- The outcomes of the judge of handler `i`. -/
def outcomes (s : ManagerState Res ε P V ω) (i : ℕ) : List (Except ε V) :=
  (s.recordOf i).filterMap (·.outcome)

/-- The phase of handler `i`, if it exists. -/
def phase? (s : ManagerState Res ε P V ω) (i : ℕ) : Option (Phase Res ε V) :=
  s.handlers[i]?.map Handler.phase

/-- **The ledger invariant.** -/
def Ledger (s : ManagerState Res ε P V ω) : Prop :=
  ∀ i, Phase.Accounts (s.phase? i) (s.grants i) (s.releases i) (s.completions i)

/-- **Handlers run the judge.** -/
def Followed (d : Deployment Res ε P V) (s : ManagerState Res ε P V ω) : Prop :=
  ∀ i, Handler.Follows d s.handlers[i]? (s.grants i) (s.calls i) (s.outcomes i)

variable {d : Deployment Res ε P V} {s s' : ManagerState Res ε P V ω} {i : ℕ} {m : Message ε P}
  {phase : Phase Res ε V} {E : Env ω Res} {other : ω → ω → Prop} {a : Action Res ε P ω}
  {group : GroupOffsets} {world : ω} {l : List (ManagerState Res ε P V ω × Action Res ε P ω)}

theorem phase?_eq {h : Handler Res ε P V} (hi : s.handlers[i]? = some h) :
    s.phase? i = some h.phase := by
  rw [phase?, hi]
  rfl

theorem completions_append {es : List (Happened Res ε V)} (h : s'.history = s.history ++ es)
    (i : ℕ) : s'.completions i
      = s.completions i + (es.filter (·.handler = i)).countP (·.isCompleted) := by
  rw [completions, recordOf_append h, List.countP_append, completions]

theorem completions_eq_zero_iff : s.completions i = 0 ↔ Happened.completed i ∉ s.history := by
  rw [completions, List.countP_eq_zero, recordOf]
  constructor
  · intro h hmem
    exact h _ (List.mem_filter.mpr ⟨hmem, by simp [Happened.handler]⟩) rfl
  · intro h e he hc
    obtain ⟨hmem, hi⟩ := List.mem_filter.mp he
    cases e with
    | completed j =>
      obtain rfl : j = i := of_decide_eq_true hi
      exact h hmem
    | granted j b => cases hc
    | called j e => cases hc
    | judged j out => cases hc
    | released j b => cases hc

theorem mem_outcomes_iff {out : Except ε V} : out ∈ s.outcomes i ↔ .judged i out ∈ s.history := by
  rw [outcomes, recordOf, List.mem_filterMap]
  constructor
  · rintro ⟨e, he, hout⟩
    obtain ⟨hmem, hi⟩ := List.mem_filter.mp he
    cases e with
    | judged j out' =>
      obtain rfl : j = i := of_decide_eq_true hi
      cases hout
      exact hmem
    | granted j b => cases hout
    | called j e => cases hout
    | released j b => cases hout
    | completed j => cases hout
  · exact fun h ↦ ⟨_, List.mem_filter.mpr ⟨h, by simp [Happened.handler]⟩, rfl⟩

/-! ## The accounts of one life -/

theorem accounts_of_past (hp : phase.Past) {grants releases : List ℕ} {completions b : ℕ}
    (hg : grants = [b]) (hr : releases = [b]) (hc : completions = 1) :
    Phase.Accounts (some phase) grants releases completions := by
  rcases hp.eq with rfl | rfl <;> exact ⟨b, hg, hr, hc⟩

theorem follows_of_past (hp : phase.Past) {grants : List ℕ} {calls : List (Event Res)}
    {outcomes : List (Except ε V)}
    (h : (calls = [] ∧ outcomes = [] ∧ ∃ e, m.value = some (.error e)) ∨
      ∃ b payload out, grants = [b] ∧ outcomes = [out] ∧ m.value = some (.ok payload) ∧
        (d.judgeSubmission payload b).Eval calls out) :
    Handler.Follows d (some ⟨m, phase⟩) grants calls outcomes := by
  rcases hp.eq with rfl | rfl <;> exact h

theorem life_accounts {h h' : Option (Handler Res ε P V)} {r r' : List (Happened Res ε V)}
    (hlife : Life d i h r h' r') (hacc : LifeAccounts h r) : LifeAccounts h' r' := by
  rw [LifeAccounts] at hacc ⊢
  cases hlife with
  | wait m => exact hacc
  | deliver m b =>
    obtain ⟨hg, hr, hc⟩ := hacc
    simp only [List.filterMap_append, List.countP_append, hg, hr, hc]
    exact ⟨rfl, rfl, rfl⟩
  | grant b =>
    obtain ⟨hg, hr, hc⟩ := hacc
    simp only [List.filterMap_append, List.countP_append, hg, hr, hc]
    exact ⟨rfl, rfl, rfl⟩
  | skip _ => exact hacc
  | judge _ => exact hacc
  | call x =>
    obtain ⟨hg, hr, hc⟩ := hacc
    simp only [List.filterMap_append, List.countP_append, hg, hr, hc]
    exact ⟨rfl, rfl, rfl⟩
  | unparsed _ hp =>
    obtain ⟨hg, hr, hc⟩ := hacc
    simp only [List.filterMap_append, List.countP_append, hg, hr, hc]
    exact accounts_of_past hp rfl rfl rfl
  | finish hp =>
    obtain ⟨hg, hr, hc⟩ := hacc
    simp only [List.filterMap_append, List.countP_append, hg, hr, hc]
    exact accounts_of_past hp rfl rfl rfl
  | settle => exact hacc

theorem life_follows {h h' : Option (Handler Res ε P V)} {r r' : List (Happened Res ε V)}
    (hlife : Life d i h r h' r') (hacc : LifeAccounts h r) (hf : LifeFollows d h r) :
    LifeFollows d h' r' := by
  rw [LifeFollows] at hf ⊢
  cases hlife with
  | wait m => exact hf
  | deliver m b =>
    simp only [List.filterMap_append, hf.1, hf.2]
    exact ⟨rfl, rfl⟩
  | grant b =>
    simp only [List.filterMap_append, hf.1, hf.2]
    exact ⟨rfl, rfl⟩
  | skip _ => exact hf
  | judge hv =>
    obtain ⟨hc, ho⟩ := hf
    exact ⟨ho, _, hv, hc ▸ .start⟩
  | call x =>
    obtain ⟨ho, payload, hv, hafter⟩ := hf
    simp only [List.filterMap_append, ho]
    exact ⟨rfl, payload, hv, hafter.answered x⟩
  | unparsed hv hp =>
    obtain ⟨hc, ho⟩ := hf
    simp only [List.filterMap_append, hc, ho]
    exact follows_of_past hp (Or.inl ⟨rfl, rfl, _, hv⟩)
  | @finish m b r out phase hp =>
    obtain ⟨ho, payload, hv, hafter⟩ := hf
    have heval := hafter.eval (Program.eval_ofExcept out)
    simp only [List.filterMap_append, hacc.1, ho]
    exact follows_of_past hp (Or.inr ⟨b, payload, out, rfl, rfl, hv, heval⟩)
  | settle => exact hf

/-! ## The accounts in every run -/

theorem Ledger.init (d : Deployment Res ε P V) (group : GroupOffsets) (world : ω) :
    Ledger (ManagerState.init d group world) := fun _ ↦ ⟨rfl, rfl, rfl⟩

theorem Ledger.step (h : Ledger s) (hcap : Capacity d s) (hs : Step d E other s a s') : Ledger s' :=
  life_step (I := fun _ ↦ LifeAccounts) (fun _ _ _ _ _ ↦ life_accounts) hcap hs h

/-- **Handlers run the judge, in every run.** -/
theorem Followed.run (hrun : ManagerRun d E other group world l s) : Followed d s := fun i ↦
  (life_invariant (I := fun _ h r ↦ LifeAccounts h r ∧ LifeFollows d h r) hrun
    (fun _ ↦ ⟨⟨rfl, rfl, rfl⟩, rfl, rfl⟩)
    (fun _ _ _ _ _ hlife h ↦ ⟨life_accounts hlife h.1, life_follows hlife h.1 h.2⟩) i).2

theorem Ledger.run (hrun : ManagerRun d E other group world l s) : Ledger s :=
  life_invariant (I := fun _ ↦ LifeAccounts) hrun (fun _ ↦ ⟨rfl, rfl, rfl⟩)
    fun _ _ _ _ _ ↦ life_accounts

/-- Only a handler makes calls. -/
theorem exists_handler_of_called (hf : Followed d s) {x : Event Res}
    (hx : .called i x ∈ s.history) : ∃ h, s.handlers[i]? = some h := by
  cases hi : s.handlers[i]? with
  | none =>
    have hfi := hf i
    rw [hi] at hfi
    have hx := mem_callsIn_iff.mpr hx
    rw [show callsIn i s.history = [] from hfi.1] at hx
    cases hx
  | some h => exact ⟨h, rfl⟩

end ManagerState

end JudgeIt
