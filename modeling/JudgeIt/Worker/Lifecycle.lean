import JudgeIt.Worker.Capacity

/-!
# The life of one handler

Seen from one handler, the system is a small automaton: the handler is delivered, gets its box,
starts, has its judge answered call by call, and passes through its `finally` block, and each of
these puts certain events on record. `Life` is that automaton, over the handler and the part of the
record that is about it. The projection theorem `life_of_step` says that a step of the system is one
of its steps or leaves the handler and its record alone. It is where the hand-off of a box matters:
the handler that gets the box of another is one that waits.

What is on record about a handler is then an invariant of the automaton, checked on its nine steps.
-/

namespace JudgeIt

open Async Transition

variable {Op : Type} {Res : Op → Type} {ε P V ω : Type}

/-- The handler an event is about. -/
def Happened.handler : Happened Res ε V → ℕ
  | granted i _ | called i _ | judged i _ | released i _ | completed i => i

/-- The phases a `finally` block can leave. -/
def Phase.Past : Phase Res ε V → Prop
  | committing | settled => True
  | waiting | granted _ | judging .. | skipped _ => False

theorem Phase.Past.eq {phase : Phase Res ε V} (h : phase.Past) :
    phase = .committing ∨ phase = .settled := by
  cases phase with
  | committing => exact Or.inl rfl
  | settled => exact Or.inr rfl
  | waiting => cases h
  | granted _ => cases h
  | judging _ _ => cases h
  | skipped _ => cases h

theorem Phase.Past.box_eq {phase : Phase Res ε V} (h : phase.Past) : phase.box = none := by
  rcases h.eq with rfl | rfl <;> rfl

/-- One step in the life of handler `i`, with the record of it. -/
inductive Life (d : Deployment Res ε P V) (i : ℕ) :
    Option (Handler Res ε P V) → List (Happened Res ε V) →
    Option (Handler Res ε P V) → List (Happened Res ε V) → Prop
  /-- Delivered with no box free. -/
  | wait {r} (m) : Life d i none r (some ⟨m, .waiting⟩) r
  /-- Delivered with a box free. -/
  | deliver {r} (m b) : Life d i none r (some ⟨m, .granted b⟩) (r ++ [.granted i b])
  /-- Handed the box of another handler. -/
  | grant {m r} (b) :
      Life d i (some ⟨m, .waiting⟩) r (some ⟨m, .granted b⟩) (r ++ [.granted i b])
  /-- Returned early. -/
  | skip {m b r} : m.value = none →
      Life d i (some ⟨m, .granted b⟩) r (some ⟨m, .skipped b⟩) r
  /-- Started judging. -/
  | judge {m b r payload} : m.value = some (.ok payload) →
      Life d i (some ⟨m, .granted b⟩) r (some ⟨m, .judging b (d.judgeSubmission payload b)⟩) r
  /-- Had a call answered. -/
  | call {m b r op k} (x) : Life d i (some ⟨m, .judging b (.call op k)⟩) r
      (some ⟨m, .judging b (k x)⟩) (r ++ [.called i ⟨op, x⟩])
  /-- Failed to parse its message. -/
  | unparsed {m b r e phase} : m.value = some (.error e) → phase.Past →
      Life d i (some ⟨m, .granted b⟩) r (some ⟨m, phase⟩) (r ++ [.released i b, .completed i])
  /-- Finished judging. -/
  | finish {m b r out phase} : phase.Past →
      Life d i (some ⟨m, .judging b (.ofExcept out)⟩) r (some ⟨m, phase⟩)
        (r ++ [.judged i out, .released i b, .completed i])
  /-- Had its commit settled. -/
  | settle {m r} : Life d i (some ⟨m, .committing⟩) r (some ⟨m, .settled⟩) r

namespace ManagerState

/-- The part of the record about handler `i`. -/
def recordOf (s : ManagerState Res ε P V ω) (i : ℕ) : List (Happened Res ε V) :=
  s.history.filter (·.handler = i)

variable {d : Deployment Res ε P V} {s s' : ManagerState Res ε P V ω} {i j b : ℕ}
  {m : Message ε P} {phase : Phase Res ε V} {E : Env ω Res} {other : ω → ω → Prop}
  {a : Action Res ε P ω} {group : GroupOffsets} {world : ω}
  {l : List (ManagerState Res ε P V ω × Action Res ε P ω)}

theorem recordOf_append {es : List (Happened Res ε V)} (h : s'.history = s.history ++ es) (i : ℕ) :
    s'.recordOf i = s.recordOf i ++ es.filter (·.handler = i) := by
  rw [recordOf, h, List.filter_append, recordOf]

/-! ## What a step puts on record -/

/-- A step answers one call of a judge, from the world and in front of it, or it answers none and
leaves the world to the rest of the application. -/
theorem record_step (hs : Step d E other s a s') : ∃ es, s'.history = s.history ++ es ∧
    (((∀ i x, .called i x ∉ es) ∧ (s'.world = s.world ∨ other s.world s'.world)) ∨
      ∃ i m b op k r, a = .respond i ⟨op, r⟩ ∧ es = [.called i ⟨op, r⟩] ∧
        s.handlers[i]? = some ⟨m, .judging b (.call op k)⟩ ∧ E s.world op r s'.world) := by
  have hfinally : ∀ (s₁ : ManagerState Res ε P V ω) i m b, ∃ es,
      (s₁.finallyBlock i m b).history = s₁.history ++ es ∧ ∀ i x, .called i x ∉ es := by
    intro s₁ i m b
    rcases s₁.finallyBlock_cases i m b with ⟨j, -, -, -, hh⟩ | ⟨-, -, -, -, hh⟩
    · exact ⟨_, hh, by simp⟩
    · exact ⟨_, hh, by simp⟩
  have hquiet : ∀ s₁ : ManagerState Res ε P V ω, s₁.history = s.history →
      (s₁.world = s.world ∨ other s.world s₁.world) → ∃ es, s₁.history = s.history ++ es ∧
      (((∀ i x, .called i x ∉ es) ∧ (s₁.world = s.world ∨ other s.world s₁.world)) ∨
        ∃ i m b op k r, a = .respond i ⟨op, r⟩ ∧ es = [.called i ⟨op, r⟩] ∧
          s.handlers[i]? = some ⟨m, .judging b (.call op k)⟩ ∧ E s.world op r s₁.world) :=
    fun s₁ hh hw ↦ ⟨[], by rw [hh, List.append_nil], Or.inl ⟨by simp, hw⟩⟩
  cases hs with
  | @deliver m _ =>
    have hw : (s.eachMessage d m).world = s.world := eachMessage_world
    rcases s.eachMessage_cases d m with ⟨b, -, -, -, hh⟩ | ⟨-, -, -, -, hh⟩
    · exact ⟨_, hh, Or.inl ⟨by simp, Or.inl hw⟩⟩
    · exact hquiet _ hh (Or.inl hw)
  | @start i m b hi =>
    rw [processMessage]
    split
    · exact hquiet _ rfl (Or.inl rfl)
    · obtain ⟨es, hes, hcalled⟩ := hfinally s i m b
      exact ⟨es, hes, Or.inl ⟨hcalled, Or.inl finallyBlock_world⟩⟩
    · exact hquiet _ rfl (Or.inl rfl)
  | @respond i m b op k r world hi hE =>
    exact ⟨_, rfl, Or.inr ⟨i, m, b, op, k, r, rfl, rfl, hi, hE⟩⟩
  | @finish i m b out hi =>
    obtain ⟨es, hes, hcalled⟩ := hfinally (s.record (.judged i out)) i m b
    refine ⟨.judged i out :: es, ?_, Or.inl ⟨fun j x hx ↦ ?_, Or.inl finallyBlock_world⟩⟩
    · rw [hes, record, List.append_assoc, List.singleton_append]
    · rcases List.mem_cons.mp hx with hx | hx
      · cases hx
      · exact hcalled j x hx
  | arrive _ => exact hquiet _ rfl (Or.inl rfl)
  | settle _ => exact hquiet _ rfl (Or.inl rfl)
  | interfere ho => exact hquiet _ rfl (Or.inr ho)

/-! ## The stretches, seen from one handler -/

/-- The handler and its record are as they were. -/
def Same (s s' : ManagerState Res ε P V ω) (i : ℕ) : Prop :=
  s'.handlers[i]? = s.handlers[i]? ∧ s'.recordOf i = s.recordOf i

/-- The step is one in the life of the handler. -/
def Lives (d : Deployment Res ε P V) (s s' : ManagerState Res ε P V ω) (i : ℕ) : Prop :=
  Life d i s.handlers[i]? (s.recordOf i) s'.handlers[i]? (s'.recordOf i)

theorem life_eachMessage (s : ManagerState Res ε P V ω) (d : Deployment Res ε P V)
    (m : Message ε P) (i : ℕ) :
    Same s (s.eachMessage d m) i ∨ Lives d s (s.eachMessage d m) i := by
  have hentry : ∀ phase, (s.eachMessage d m).handlers = s.handlers ++ [⟨m, phase⟩] →
      (s.eachMessage d m).handlers[i]?
        = if i = s.handlers.length then some ⟨m, phase⟩ else s.handlers[i]? := by
    intro phase hh
    rw [hh, List.getElem?_append_singleton]
  have hnone : s.handlers[s.handlers.length]? = none := by simp
  rcases s.eachMessage_cases d m with ⟨b, -, -, hh, hhist⟩ | ⟨-, -, -, hh, hhist⟩
  · rw [Same, Lives, hentry _ hh, recordOf_append hhist]
    by_cases hi : i = s.handlers.length
    · subst hi
      rw [if_pos rfl, hnone]
      exact Or.inr (by simpa [Happened.handler] using Life.deliver m b)
    · exact Or.inl ⟨if_neg hi, by simp [Happened.handler, Ne.symm hi]⟩
  · have hrecord : (s.eachMessage d m).recordOf i = s.recordOf i := by
      rw [recordOf, hhist, recordOf]
    rw [Same, Lives, hentry _ hh, hrecord]
    by_cases hi : i = s.handlers.length
    · subst hi
      rw [if_pos rfl, hnone]
      exact Or.inr (.wait m)
    · exact Or.inl ⟨if_neg hi, rfl⟩

theorem phaseAfter_past (s : ManagerState Res ε P V ω) (m : Message ε P) :
    (s.phaseAfter m).Past := by
  rcases s.phaseAfter_eq m with h | h <;> rw [h] <;> trivial

/-- The `finally` block of handler `i` moves that handler on, may hand its box to one that waits,
and leaves the others alone. -/
theorem life_finallyBlock (hcap : Capacity d s) (hi : s.handlers[i]? = some ⟨m, phase⟩)
    (hb : phase.box = some b) (j : ℕ) :
    (j = i ∧ (s.finallyBlock i m b).handlers[j]? = some ⟨m, s.phaseAfter m⟩ ∧
      (s.finallyBlock i m b).recordOf j = s.recordOf j ++ [.released i b, .completed i]) ∨
    (j ≠ i ∧ (Same s (s.finallyBlock i m b) j ∨ Lives d s (s.finallyBlock i m b) j)) := by
  rcases s.finallyBlock_cases i m b with ⟨k, hq, -, hh, hhist⟩ | ⟨-, -, -, hh, hhist⟩
  · obtain ⟨m', hk⟩ := (hcap.mem_queue k).mp (by simp [hq])
    have hki : k ≠ i := by
      rintro rfl
      rw [hi] at hk
      cases hk
      cases hb
    have hi₁ : (s.setPhase k (.granted b)).handlers[i]? = some ⟨m, phase⟩ :=
      (getElem?_setPhase_ne hki _).trans hi
    rw [Same, Lives, recordOf_append hhist, hh]
    by_cases hji : j = i
    · subst hji
      exact Or.inl ⟨rfl, getElem?_setPhase_self hi₁ _, by simp [Happened.handler, hki]⟩
    · rw [getElem?_setPhase_ne (Ne.symm hji)]
      refine Or.inr ⟨hji, ?_⟩
      by_cases hjk : j = k
      · subst hjk
        rw [getElem?_setPhase_self hk, hk]
        exact Or.inr (by simpa [Happened.handler, Ne.symm hji] using Life.grant b)
      · exact Or.inl ⟨getElem?_setPhase_ne (Ne.symm hjk) _,
          by simp [Happened.handler, Ne.symm hji, Ne.symm hjk]⟩
  · rw [Same, Lives, recordOf_append hhist, hh]
    by_cases hji : j = i
    · subst hji
      exact Or.inl ⟨rfl, getElem?_setPhase_self hi _, by simp [Happened.handler]⟩
    · exact Or.inr ⟨hji, Or.inl ⟨getElem?_setPhase_ne (Ne.symm hji) _,
        by simp [Happened.handler, Ne.symm hji]⟩⟩

/-- A stretch that only moves handler `i` on. -/
theorem life_setPhase {phase' : Phase Res ε V} (hi : s.handlers[i]? = some ⟨m, phase⟩)
    (hlife : Life d i (some ⟨m, phase⟩) (s.recordOf i) (some ⟨m, phase'⟩) (s.recordOf i)) (j : ℕ) :
    Same s (s.setPhase i phase') j ∨ Lives d s (s.setPhase i phase') j := by
  by_cases hji : j = i
  · subst hji
    rw [Same, Lives, getElem?_setPhase_self hi, hi]
    exact Or.inr hlife
  · exact Or.inl ⟨getElem?_setPhase_ne (Ne.symm hji) _, rfl⟩

/-- The synchronous start of a handler that has its box, by what its message holds. -/
theorem life_processMessage (hcap : Capacity d s)
    (hi : s.handlers[i]? = some ⟨m, .granted b⟩) (j : ℕ) :
    Same s (s.processMessage d i m b) j ∨ Lives d s (s.processMessage d i m b) j := by
  rw [processMessage]
  split
  · next hv => exact life_setPhase hi (.skip hv) j
  · next e hv =>
    rcases life_finallyBlock hcap hi rfl j with ⟨rfl, hh, hr⟩ | ⟨-, h⟩
    · rw [Same, Lives, hh, hr, hi]
      exact Or.inr (.unparsed hv (s.phaseAfter_past m))
    · exact h
  · next payload hv => exact life_setPhase hi (.judge hv) j

/-- An answer to a call of handler `i`, whatever it did to the world. -/
theorem life_respond {op : Op} {k : Res op → Program Res ε V} {r : Res op}
    (hi : s.handlers[i]? = some ⟨m, .judging b (.call op k)⟩) (world : ω) (j : ℕ) :
    Same s (({ s with world := world }.setPhase i (.judging b (k r))).record
      (.called i ⟨op, r⟩)) j ∨
    Lives d s (({ s with world := world }.setPhase i (.judging b (k r))).record
      (.called i ⟨op, r⟩)) j := by
  have hhist : (({ s with world := world }.setPhase i (.judging b (k r))).record
      (.called i ⟨op, r⟩)).history = s.history ++ [.called i ⟨op, r⟩] := rfl
  by_cases hji : j = i
  · subst hji
    have hself : (({ s with world := world }.setPhase j (.judging b (k r))).record
        (.called j ⟨op, r⟩)).handlers[j]? = some ⟨m, .judging b (k r)⟩ :=
      getElem?_setPhase_self (s := { s with world := world }) hi _
    rw [Same, Lives, recordOf_append hhist, hself, hi]
    exact Or.inr (by simpa [Happened.handler] using Life.call r)
  · exact Or.inl ⟨getElem?_setPhase_ne (s := { s with world := world }) (Ne.symm hji) _,
      by simp [recordOf_append hhist, Happened.handler, Ne.symm hji]⟩

/-- The end of a judge: its outcome goes on record, and the `finally` block runs. -/
theorem life_finish {out : Except ε V} (hcap : Capacity d s)
    (hi : s.handlers[i]? = some ⟨m, .judging b (.ofExcept out)⟩) (j : ℕ) :
    Same s ((s.record (.judged i out)).finallyBlock i m b) j ∨
    Lives d s ((s.record (.judged i out)).finallyBlock i m b) j := by
  have hhist : (s.record (.judged i out)).history = s.history ++ [.judged i out] := rfl
  have hcap' : Capacity d (s.record (.judged i out)) := hcap.congr rfl rfl
  rcases life_finallyBlock hcap' hi rfl j with ⟨rfl, hh, hr⟩ | ⟨hji, h⟩
  · rw [Same, Lives, hh, hr, hi, recordOf_append hhist]
    have hlife : Life d j (some ⟨m, .judging b (.ofExcept out)⟩) (s.recordOf j)
        (some ⟨m, (s.record (.judged j out)).phaseAfter m⟩)
        (s.recordOf j ++ [.judged j out, .released j b, .completed j]) :=
      .finish (phaseAfter_past _ m)
    exact Or.inr (by simpa [Happened.handler] using hlife)
  · have hrecord : (s.record (.judged i out)).recordOf j = s.recordOf j := by
      simp [recordOf_append hhist, Happened.handler, Ne.symm hji]
    rw [Same, Lives, hrecord] at h
    exact h

/-- **The projection to one handler.** -/
theorem life_of_step (hcap : Capacity d s) (hs : Step d E other s a s') (j : ℕ) :
    Same s s' j ∨ Lives d s s' j := by
  cases hs with
  | deliver _ => exact life_eachMessage s d _ j
  | start hi => exact life_processMessage hcap hi j
  | @respond i m b op k r world hi _ => exact life_respond hi world j
  | finish hi => exact life_finish hcap hi j
  | arrive _ => exact Or.inl ⟨rfl, rfl⟩
  | settle hi => exact life_setPhase hi .settle j
  | interfere _ => exact Or.inl ⟨rfl, rfl⟩

/-- What the steps of a life preserve, a step of the system preserves for every handler. -/
theorem life_step {I : ℕ → Option (Handler Res ε P V) → List (Happened Res ε V) → Prop}
    (hI : ∀ i h r h' r', Life d i h r h' r' → I i h r → I i h' r') (hcap : Capacity d s)
    (hs : Step d E other s a s') (h : ∀ i, I i s.handlers[i]? (s.recordOf i)) (i : ℕ) :
    I i s'.handlers[i]? (s'.recordOf i) := by
  rcases life_of_step hcap hs i with ⟨hh, hr⟩ | hlife
  · rw [hh, hr]
    exact h i
  · exact hI _ _ _ _ _ hlife (h i)

/-- **Invariants of one life.** What the steps of a life preserve holds of every handler in every
run. -/
theorem life_invariant {I : ℕ → Option (Handler Res ε P V) → List (Happened Res ε V) → Prop}
    (hrun : ManagerRun d E other group world l s) (h₀ : ∀ i, I i none [])
    (hI : ∀ i h r h' r', Life d i h r h' r' → I i h r → I i h' r') (i : ℕ) :
    I i s.handlers[i]? (s.recordOf i) :=
  (hrun.invariant' (I := fun s ↦ Capacity d s ∧ ∀ i, I i s.handlers[i]? (s.recordOf i))
    ⟨.init d group world, fun i ↦ h₀ i⟩
    fun _ _ _ h hs ↦ ⟨h.1.step hs, life_step hI h.1 hs h.2⟩).2 i

/-! ## Answering a judge -/

/-- Handler `i` has become `h` and the trace has been put on record for it. -/
def answered (s : ManagerState Res ε P V ω) (i : ℕ) (h : Handler Res ε P V) (world : ω)
    (tr : List (Event Res)) : ManagerState Res ε P V ω :=
  { s with
    handlers := s.handlers.set i h
    world := world
    history := s.history ++ tr.map (.called i) }

theorem answered_nil {h : Handler Res ε P V} (hi : s.handlers[i]? = some h) :
    s.answered i h s.world [] = s := by
  obtain ⟨hlt, rfl⟩ := List.getElem?_eq_some_iff.mp hi
  rw [answered, List.set_getElem_self hlt, List.map_nil, List.append_nil]

theorem answered_cons (s : ManagerState Res ε P V ω) (i : ℕ) (phase : Phase Res ε V)
    (h : Handler Res ε P V) (w₁ w : ω) (x : Event Res) (tr : List (Event Res)) :
    (({ s with world := w₁ }.setPhase i phase).record (.called i x)).answered i h w tr
      = s.answered i h w (x :: tr) := by
  have hset : (s.handlers.modify i fun h ↦ { h with phase := phase }).set i h
      = s.handlers.set i h := by
    refine List.ext_getElem? fun j ↦ ?_
    rw [List.getElem?_set, List.getElem?_set, List.length_modify, List.getElem?_modify]
    split
    · rfl
    · exact id_map _
  rw [answered, answered, List.map_cons]
  simp only [record, setPhase, hset, List.append_assoc, List.singleton_append]

/-- **A judge can be answered to its end**, with nothing else going on. -/
theorem exists_run_answered {x : Program Res ε V} {tr : List (Event Res)} {out : Except ε V}
    {w : ω} (hx : x.Eval tr out) (hrun : ManagerRun d E other group world l s)
    (hi : s.handlers[i]? = some ⟨m, .judging b x⟩) (hE : E.Steps s.world tr w) :
    ∃ l', ManagerRun d E other group world (l ++ l')
        (s.answered i ⟨m, .judging b (.ofExcept out)⟩ w tr) ∧
      ∀ y ∈ l', ∃ z ∈ tr, y.2 = .respond i z := by
  induction x generalizing s tr l with
  | pure v =>
    obtain ⟨rfl, rfl⟩ := hx
    obtain rfl := hE
    exact ⟨[], by rwa [List.append_nil, Program.ofExcept, answered_nil hi], by simp⟩
  | throw e =>
    obtain ⟨rfl, rfl⟩ := hx
    obtain rfl := hE
    exact ⟨[], by rwa [List.append_nil, Program.ofExcept, answered_nil hi], by simp⟩
  | call op k ih =>
    obtain ⟨r, tr, rfl, hx⟩ := hx
    obtain ⟨w₁, hE₁, hE⟩ := hE
    obtain ⟨l', hl', hall⟩ := ih r hx (hrun.snoc (.respond hi hE₁))
      (getElem?_setPhase_self (s := { s with world := w₁ }) hi _) hE
    refine ⟨(s, .respond i ⟨op, r⟩) :: l', ?_, List.forall_mem_cons.mpr ⟨?_, fun y hy ↦ ?_⟩⟩
    · rwa [List.append_assoc, List.singleton_append, answered_cons] at hl'
    · exact ⟨_, List.mem_cons_self, rfl⟩
    · obtain ⟨z, hz, hy⟩ := hall y hy
      exact ⟨z, List.mem_cons_of_mem _ hz, hy⟩

end ManagerState

end JudgeIt
