import JudgeIt.Cache.Service

/-!
# One fetch at a time

A promise chain enters the map when it is created and leaves it in its `finally` part, which runs in
every case. So the map holds a key exactly while a chain for it has not come to its end, there is at
most one such chain for a key, and the entry a chain deletes is its own. Callers hold the number of
their chain, and wait for that chain whatever the map says later.
-/

namespace JudgeIt

open Async CacheService

variable {F V E : Type} {x : GetOrSet F} {tr : List (Event (FetchCall.Res (F := F) V E))}
  {out : Except E (Option V)}

/-! ## The ways of a chain -/

/-- How a promise chain goes, call by call. -/
inductive FetchChain (V E : Type) (x : GetOrSet F) :
    List (Event (FetchCall.Res (F := F) V E)) → Except E (Option V) → Prop
  /-- The fetch rejects. -/
  | failed (e : E) : FetchChain V E x
      [⟨.fetchFn x.fetchFn, .error e⟩, ⟨.inFlightDelete x.key, ()⟩] (.error e)
  /-- The fetch resolves with `null`. -/
  | null : FetchChain V E x
      [⟨.fetchFn x.fetchFn, .ok none⟩, ⟨.inFlightDelete x.key, ()⟩] (.ok none)
  /-- The fetch resolves with a value, which is sent to the cache. -/
  | fetched (value : V) (r : Except E Unit) : FetchChain V E x
      [⟨.fetchFn x.fetchFn, .ok (some value)⟩, ⟨.cacheSet x.key (some value) x.ttl, r⟩,
        ⟨.inFlightDelete x.key, ()⟩] (r.map fun _ ↦ some value)

theorem eval_fetchChain (h : (fetchChain x).Eval tr out) : FetchChain V E x tr out := by
  have hdelete : ∀ tr e, ¬(Program.request (ε := E) (FetchCall.inFlightDelete x.key) :
      Fetch F V E Unit).Eval tr (.error e) := by
    rintro tr e ⟨r, tr', -, -, he⟩
    cases he
  obtain ⟨tr₁, tr₂, rfl, hchain, r, tr₂, rfl, rfl, -⟩ := (Program.eval_tryFinally_iff hdelete).mp h
  -- the `catch` part throws what it has caught
  obtain ⟨r, tr₁, rfl, hbody⟩ := Program.eval_rethrow_iff.mp hchain
  rcases r with e | _ | value
  · obtain ⟨rfl, rfl⟩ := hbody
    exact .failed e
  · obtain ⟨rfl, rfl⟩ := hbody
    exact .null
  · obtain ⟨r, tr₁, rfl, hbody⟩ := hbody
    rcases r with e | _ <;> obtain ⟨rfl, rfl⟩ := hbody
    · exact .fetched value (.error e)
    · exact .fetched value (.ok ())

/-- A caller, call by call. -/
inductive Caller (E : Type) (x : GetOrSet F) :
    List (Event (CacheCall.Res (F := F) V E)) → Except E (Option V) → Prop
  /-- The cache cannot be read. -/
  | unread (e : E) : Caller E x [⟨.cacheGet x.key, .error e⟩] (.error e)
  /-- The cache has a value. -/
  | hit (value : V) : Caller E x [⟨.cacheGet x.key, .ok (some value)⟩] (.ok (some value))
  /-- It has none, and the caller waits for a promise. -/
  | missed (c : ℕ) (out : Except E (Option V)) : Caller E x
      [⟨.cacheGet x.key, .ok none⟩, ⟨.flight x, c⟩, ⟨.promise c, out⟩] out

theorem eval_getOrSet {tr : List (Event (CacheCall.Res (F := F) V E))}
    (h : (getOrSet x).Eval tr out) : Caller E x tr out := by
  obtain ⟨r, tr, rfl, h⟩ := h
  rcases r with e | _ | value
  · obtain ⟨rfl, rfl⟩ := h
    exact .unread e
  · obtain ⟨c, tr, rfl, r, tr, rfl, h⟩ := h
    obtain ⟨rfl, rfl⟩ := Program.eval_ofExcept_iff.mp h
    exact .missed c _
  · obtain ⟨rfl, rfl⟩ := h
    exact .hit value

/-! ## Chains and the map -/

/-- A promise chain with the calls it has made. -/
abbrev Chain (F V E : Type) := Process (GetOrSet F) (FetchCall.Res (F := F) V E) E (Option V)

/-- The `finally` part of the chain has not run. -/
def Unfinished (chain : Chain F V E) : Prop := ∀ key, ⟨.inFlightDelete key, ()⟩ ∉ chain.trace

/-- The map holds the chains that have not come to their end. -/
structure Exact (flights : Flights F V E) : Prop where
  valid : Pool.Valid fetchChain flights
  inFlight : ∀ key c, flights.shared key = some c ↔ ∃ chain, flights.processes[c]? = some chain ∧
    chain.request.key = key ∧ Unfinished chain

variable {flights flights' : Flights F V E} {c : ℕ} {chain : Chain F V E} {key : JsString}
  {event : Event (FetchCall.Res (F := F) V E)}

instance CacheCall.nonempty_res : ∀ op : CacheCall F, Nonempty (CacheCall.Res V E op)
  | .cacheGet _ => ⟨.ok none⟩
  | .flight _ => ⟨0⟩
  | .promise _ => ⟨.ok none⟩

instance FetchCall.nonempty_res : ∀ op : FetchCall F V, Nonempty (FetchCall.Res V E op)
  | .fetchFn _ => ⟨.ok none⟩
  | .cacheSet _ _ _ => ⟨.ok ()⟩
  | .inFlightDelete _ => ⟨()⟩

theorem FetchChain.of_delete {rest : List (Event (FetchCall.Res (F := F) V E))} {r : Unit}
    (h : FetchChain V E x (tr ++ ⟨.inFlightDelete key, r⟩ :: rest) out) :
    key = x.key ∧ rest = [] ∧ ∀ key', ⟨.inFlightDelete key', ()⟩ ∉ tr := by
  generalize hl : tr ++ ⟨.inFlightDelete key, r⟩ :: rest = l at h
  cases h <;> simp [List.append_eq_cons_iff, List.cons_eq_append_iff] at hl <;>
    obtain ⟨rfl, rfl, rfl⟩ := hl <;> simp

/-- Two chains for one key are not under way at once. -/
theorem Exact.unique (h : Exact flights) {c' : ℕ} {chain' : Chain F V E}
    (hc : flights.processes[c]? = some chain) (hc' : flights.processes[c']? = some chain')
    (hkey : chain.request.key = chain'.request.key) (hun : Unfinished chain)
    (hun' : Unfinished chain') : c = c' := by
  have hin := (h.inFlight chain.request.key c).mpr ⟨chain, hc, rfl, hun⟩
  have hin' := (h.inFlight chain.request.key c').mpr ⟨chain', hc', hkey.symm, hun'⟩
  rw [hin, Option.some.injEq] at hin'
  exact hin'

theorem Exact.accepted (h : Exact flights) (hnone : flights.shared x.key = none) :
    Exact { flights.accepted fetchChain x with
      shared := Function.update flights.shared x.key (some flights.processes.length) } := by
  have hvalid : Pool.Valid fetchChain (flights.accepted fetchChain x) :=
    h.valid.step (.accept (E := FetchAnswers) x)
  refine ⟨hvalid, fun key c ↦ ?_⟩
  simp only [Pool.getElem?_accepted]
  rcases eq_or_ne key x.key with rfl | hne
  · rw [Function.update_self, Option.some.injEq]
    constructor
    · rintro rfl
      exact ⟨_, Or.inr ⟨rfl, rfl⟩, rfl, fun _ ↦ List.not_mem_nil⟩
    · rintro ⟨chain, hc | ⟨rfl, -⟩, hkey, hun⟩
      · rw [(h.inFlight x.key c).mpr ⟨chain, hc, hkey, hun⟩] at hnone
        cases hnone
      · rfl
  · rw [Function.update_of_ne hne, h.inFlight]
    constructor
    · rintro ⟨chain, hc, hchain⟩
      exact ⟨chain, Or.inl hc, hchain⟩
    · rintro ⟨chain, hc | ⟨-, rfl⟩, hkey, hun⟩
      · exact ⟨chain, hc, hkey, hun⟩
      · exact absurd hkey.symm hne

/-- An answer finishes its chain if it is the answer to `delete`, and no other. -/
theorem exists_unfinished_answered {c' : ℕ} {rest : Fetch F V E (Option V)}
    {inFlight : JsString → Option ℕ} :
    (∃ chain, (flights.answered c event rest inFlight).processes[c']? = some chain ∧
      chain.request.key = key ∧ Unfinished chain) ↔
    (∃ chain, flights.processes[c']? = some chain ∧ chain.request.key = key ∧ Unfinished chain) ∧
      (c = c' → ∀ key, event ≠ ⟨.inFlightDelete key, ()⟩) := by
  rw [Pool.getElem?_answered]
  by_cases hc : c = c'
  · subst hc
    simp only [if_true, Option.map_eq_some_iff, true_imp_iff]
    constructor
    · rintro ⟨_, ⟨chain, hchain, rfl⟩, hkey, hun⟩
      refine ⟨⟨chain, hchain, hkey, fun key hmem ↦ ?_⟩, fun key hevent ↦ ?_⟩
      · exact hun key (List.mem_append_left _ hmem)
      · exact hun key (List.mem_append_right _ (List.mem_singleton.mpr hevent.symm))
    · rintro ⟨⟨chain, hchain, hkey, hun⟩, hevent⟩
      refine ⟨_, ⟨chain, hchain, rfl⟩, hkey, fun key hmem ↦ ?_⟩
      rcases List.mem_append.mp hmem with hmem | hmem
      · exact hun key hmem
      · exact hevent key (List.mem_singleton.mp hmem).symm
  · simp [hc]

theorem Exact.answered (h : Exact flights)
    (hs : Pool.Step fetchChain FetchAnswers flights (.answer c event) flights') :
    Exact flights' := by
  have hvalid := h.valid.step hs
  cases hs with
  | @answer _ x tr op k r shared hc hanswer =>
    refine ⟨hvalid, fun key c' ↦ ?_⟩
    rw [Pool.shared_answered, exists_unfinished_answered, ← h.inFlight]
    cases op with
    | inFlightDelete key₀ =>
      obtain ⟨rest, out, heval⟩ := h.valid.pending (List.mem_of_getElem? hc)
        (Process.pending_eq_some_iff.mpr ⟨k, rfl⟩) r
      obtain ⟨hkey₀, -, hun⟩ := (eval_fetchChain heval).of_delete
      obtain rfl : key₀ = x.key := hkey₀
      have hin := (h.inFlight x.key c).mpr ⟨_, hc, rfl, hun⟩
      rw [show shared = Function.update flights.shared x.key none from hanswer]
      rcases eq_or_ne key x.key with rfl | hne
      · -- the entry was the chain's own
        rw [Function.update_self, hin]
        refine iff_of_false (by simp) ?_
        rintro ⟨heq, hother⟩
        exact hother (Option.some.inj heq) x.key rfl
      · rw [Function.update_of_ne hne]
        refine (and_iff_left_of_imp fun hkey heq ↦ ?_).symm
        rw [← heq, h.inFlight] at hkey
        obtain ⟨chain, hchain, hkey, -⟩ := hkey
        rw [hc, Option.some.injEq] at hchain
        exact absurd (hchain ▸ hkey).symm hne
    | _ =>
      rw [show shared = flights.shared from hanswer]
      exact (and_iff_left fun _ key ↦ by simp).symm

/-! ## Callers and their chains -/

/-- Chains stay, and a chain that has settled is left alone. -/
def Keeps (flights flights' : Flights F V E) : Prop :=
  ∀ (c : ℕ) (chain : Chain F V E), flights.processes[c]? = some chain →
    ∃ chain' : Chain F V E, flights'.processes[c]? = some chain' ∧
      chain'.request = chain.request ∧ (chain.Settled → chain' = chain)

theorem Keeps.refl (flights : Flights F V E) : Keeps flights flights :=
  fun _ chain hc ↦ ⟨chain, hc, rfl, fun _ ↦ rfl⟩

theorem keeps_accepted {inFlight : JsString → Option ℕ} :
    Keeps flights { flights.accepted fetchChain x with shared := inFlight } :=
  fun _ chain hc ↦ ⟨chain, Pool.getElem?_accepted.mpr (Or.inl hc), rfl, fun _ ↦ rfl⟩

theorem keeps_answered
    (hs : Pool.Step fetchChain FetchAnswers flights (.answer c event) flights') :
    Keeps flights flights' := by
  cases hs with
  | @answer _ x tr op k r shared hc _ =>
    intro c' chain hc'
    rw [Pool.getElem?_answered, hc']
    split
    · next heq =>
      refine ⟨_, rfl, rfl, ?_⟩
      rintro ⟨out, hout⟩
      rw [← heq, hc, Option.some.injEq] at hc'
      rw [← hc'] at hout
      cases out <;> cases hout
    · exact ⟨chain, rfl, rfl, fun _ ↦ rfl⟩

/-- What a caller has been told of its chain. -/
structure Told (x : GetOrSet F) (tr : List (Event (CacheCall.Res (F := F) V E)))
    (flights : Flights F V E) : Prop where
  flight : ∀ c, ⟨.flight x, c⟩ ∈ tr →
    ∃ chain, flights.processes[c]? = some chain ∧ chain.request.key = x.key
  promise : ∀ c out, ⟨.promise c, out⟩ ∈ tr →
    ∃ chain, flights.processes[c]? = some chain ∧ chain.rest = .ofExcept out

theorem Told.keeps {tr : List (Event (CacheCall.Res (F := F) V E))} (h : Told x tr flights)
    (hkeeps : Keeps flights flights') : Told x tr flights' where
  flight := fun c hmem ↦ by
    obtain ⟨chain, hc, hkey⟩ := h.flight c hmem
    obtain ⟨chain', hc', hrequest, -⟩ := hkeeps c chain hc
    exact ⟨chain', hc', hrequest ▸ hkey⟩
  promise := fun c out hmem ↦ by
    obtain ⟨chain, hc, hrest⟩ := h.promise c out hmem
    obtain ⟨chain', hc', -, hsame⟩ := hkeeps c chain hc
    exact ⟨chain', hc', by rw [hsame ⟨out, hrest⟩, hrest]⟩

theorem Exact.answers (h : Exact flights) {op : CacheCall F} {r : CacheCall.Res V E op}
    (hanswer : Answers flights op r flights') : Exact flights' ∧ Keeps flights flights' := by
  cases op with
  | cacheGet key =>
    rw [show flights' = flights from hanswer]
    exact ⟨h, .refl _⟩
  | promise c =>
    rw [hanswer.1]
    exact ⟨h, .refl _⟩
  | flight x =>
    simp only [Answers] at hanswer
    split at hanswer
    · rw [hanswer.2]
      exact ⟨h, .refl _⟩
    · next hnone =>
      obtain ⟨rfl, rfl⟩ := hanswer
      exact ⟨h.accepted (by simpa using hnone), keeps_accepted⟩

theorem Told.answered {tr : List (Event (CacheCall.Res (F := F) V E))} (hexact : Exact flights)
    (h : Told x tr flights) {op : CacheCall F} {r : CacheCall.Res V E op}
    (hanswer : Answers flights op r flights') : Told x (tr ++ [⟨op, r⟩]) flights' := by
  have h' := h.keeps (hexact.answers hanswer).2
  refine ⟨fun c hmem ↦ ?_, fun c out hmem ↦ ?_⟩
  · rcases List.mem_append.mp hmem with hmem | hmem
    · exact h'.flight c hmem
    · cases List.mem_singleton.mp hmem
      simp only [Answers] at hanswer
      split at hanswer
      · obtain ⟨hin, rfl⟩ := hanswer
        obtain ⟨chain, hc, hkey, -⟩ := (hexact.inFlight x.key c).mp hin
        exact ⟨chain, hc, hkey⟩
      · obtain ⟨rfl, rfl⟩ := hanswer
        exact ⟨_, Pool.getElem?_accepted.mpr (Or.inr ⟨rfl, rfl⟩), rfl⟩
  · rcases List.mem_append.mp hmem with hmem | hmem
    · exact h'.promise c out hmem
    · cases List.mem_singleton.mp hmem
      obtain ⟨rfl, hchain⟩ := hanswer
      exact hchain

/-! ## The service -/

/-- What holds whenever the service is looked at. -/
structure Caches.Invariant (s : Caches F V E) : Prop where
  valid : Pool.Valid getOrSet s
  exact : Exact s.shared
  told : ∀ caller ∈ s.processes, Told caller.request caller.trace s.shared

variable {s s' : Caches F V E} {l : List (Caches F V E × Caches.Action F V E)}

theorem Caches.Invariant.step {a : Caches.Action F V E} (h : s.Invariant) (hs : Step s a s') :
    s'.Invariant := by
  cases hs with
  | @chain flights c event hstep =>
    exact ⟨h.valid, h.exact.answered hstep,
      fun caller hcaller ↦ (h.told caller hcaller).keeps (keeps_answered hstep)⟩
  | caller hstep =>
    have hvalid := h.valid.step hstep
    cases hstep with
    | accept x =>
      refine ⟨hvalid, h.exact, fun caller hcaller ↦ ?_⟩
      rcases List.mem_append.mp hcaller with hcaller | hcaller
      · exact h.told caller hcaller
      · rw [List.mem_singleton.mp hcaller]
        exact ⟨by simp, by simp⟩
    | @answer i x tr op k r flights hi hanswer =>
      obtain ⟨hexact, hkeeps⟩ := h.exact.answers hanswer
      refine ⟨hvalid, hexact, fun caller hcaller ↦ ?_⟩
      obtain ⟨l₁, l₂, hl, hl'⟩ := Pool.exists_answered hi
      have hother (caller) (hcaller : caller ∈ l₁ ++ ⟨x, tr, .call op k⟩ :: l₂) :
          Told caller.request caller.trace flights :=
        (h.told caller (hl ▸ hcaller)).keeps hkeeps
      rw [hl'] at hcaller
      rcases List.mem_append.mp hcaller with hcaller | hcaller
      · exact hother caller (List.mem_append_left _ hcaller)
      rcases List.mem_cons.mp hcaller with rfl | hcaller
      · exact (h.told _ (List.mem_of_getElem? hi)).answered h.exact hanswer
      · exact hother caller (by simp [hcaller])

theorem Caches.invariant (hrun : Transition.Run Step .initial l s) : s.Invariant :=
  hrun.invariant' (I := Invariant)
    ⟨by simp [Pool.Valid, initial], ⟨by simp [Pool.Valid, initial], by simp [initial]⟩,
      by simp [initial]⟩
    fun _ _ _ h hs ↦ h.step hs

/-! ## No chain is stuck -/

theorem FetchChain.of_fetchFn {rest : List (Event (FetchCall.Res (F := F) V E))} {fetchFn : F}
    {r : Except E (Option V)} (h : FetchChain V E x (tr ++ ⟨.fetchFn fetchFn, r⟩ :: rest) out) :
    tr = [] := by
  generalize hl : tr ++ ⟨.fetchFn fetchFn, r⟩ :: rest = l at h
  cases h <;> simp [List.append_eq_cons_iff, List.cons_eq_append_iff] at hl <;> exact hl.1

theorem FetchChain.ne_null (h : FetchChain V E x tr out) (ttl : Option ℕ) (r : Except E Unit) :
    ⟨.cacheSet key none ttl, r⟩ ∉ tr := by
  cases h <;> simp

theorem FetchChain.length_le (h : FetchChain V E x tr out) : tr.length ≤ 3 := by
  cases h <;> simp

theorem FetchChain.delete_mem (h : FetchChain V E x tr out) : ⟨.inFlightDelete x.key, ()⟩ ∈ tr := by
  cases h <;> simp

/-- A chain that waits for its fetch has done nothing else, so it is under way. -/
theorem Exact.unfinished_of_fetching (h : Exact flights) (hc : flights.processes[c]? = some chain)
    {fetchFn : F} (hpending : chain.pending = some (.fetchFn fetchFn)) : Unfinished chain := by
  obtain ⟨rest, out, heval⟩ := h.valid.pending (List.mem_of_getElem? hc) hpending (.ok none)
  rw [Unfinished, (eval_fetchChain heval).of_fetchFn]
  exact fun _ ↦ List.not_mem_nil

/-- A chain that has settled has come to its end. -/
theorem Exact.not_unfinished_of_settled (h : Exact flights)
    (hc : flights.processes[c]? = some chain) (hsettled : chain.Settled) : ¬Unfinished chain := by
  obtain ⟨out, heval⟩ := h.valid.eval (List.mem_of_getElem? hc) hsettled
  exact fun hun ↦ hun _ (eval_fetchChain heval).delete_mem

/-- A chain under way waits for a call, which may be answered in any way, and it makes no more than
three. -/
theorem Exact.progress (h : Exact flights) (hc : flights.processes[c]? = some chain)
    (hun : Unfinished chain) : chain.trace.length < 3 ∧ ∃ op, chain.pending = some op ∧
      ∀ r, ∃ flights', Pool.Step fetchChain FetchAnswers flights (.answer c ⟨op, r⟩) flights' := by
  have hnot := fun out hrest ↦ h.not_unfinished_of_settled hc ⟨out, hrest⟩ hun
  obtain ⟨x, tr, rest⟩ := chain
  cases rest with
  | pure a => exact absurd rfl (hnot (.ok a))
  | throw e => exact absurd rfl (hnot (.error e))
  | call op k =>
    obtain ⟨rest, out, heval⟩ := h.valid.pending (List.mem_of_getElem? hc)
      (Process.pending_eq_some_iff.mpr ⟨k, rfl⟩) (Classical.arbitrary _)
    have hlength := (eval_fetchChain heval).length_le
    rw [List.length_append, List.length_cons] at hlength
    refine ⟨by omega, op, rfl, fun r ↦ ?_⟩
    have hanswer : ∃ inFlight, FetchAnswers flights.shared op r inFlight := by
      cases op <;> exact ⟨_, rfl⟩
    obtain ⟨inFlight, hanswer⟩ := hanswer
    exact ⟨_, .answer hc hanswer⟩

/-- With nothing going on but the chain of the key, the key is released, or the chain is further
than before. -/
theorem Caches.Invariant.exists_run (h : s.Invariant) (key : JsString) (n : ℕ) : ∃ l s',
    Transition.Run Step s l s' ∧ s'.Invariant ∧
    (∀ y ∈ l, ∃ c event, y.2 = .chain c event) ∧ s'.processes = s.processes ∧
    (s'.shared.shared key = none ∨ ∃ c chain, s'.shared.shared key = some c ∧
      s'.shared.processes[c]? = some chain ∧ Unfinished chain ∧ n ≤ chain.trace.length) := by
  induction n with
  | zero =>
    refine ⟨[], s, .nil, h, by simp, rfl, ?_⟩
    cases hkey : s.shared.shared key with
    | none => exact Or.inl rfl
    | some c =>
      obtain ⟨chain, hc, -, hun⟩ := (h.exact.inFlight key c).mp hkey
      exact Or.inr ⟨c, chain, rfl, hc, hun, Nat.zero_le _⟩
  | succ n ih =>
    obtain ⟨l, s', hrun, hinv, hl, hsame, hnone | ⟨c, chain, hkey, hc, hun, hn⟩⟩ := ih
    · exact ⟨l, s', hrun, hinv, hl, hsame, Or.inl hnone⟩
    -- any answer to the call it waits for takes the chain one further
    obtain ⟨-, op, hpending, hstep⟩ := hinv.exact.progress hc hun
    obtain ⟨flights, hstep⟩ := hstep (Classical.arbitrary _)
    have hs : Step s' (.chain c ⟨op, Classical.arbitrary _⟩) { s' with shared := flights } :=
      .chain hstep
    have hinv' := hinv.step hs
    refine ⟨_, _, hrun.snoc hs, hinv', ?_, hsame, ?_⟩
    · intro y hy
      rcases List.mem_append.mp hy with hy | hy
      · exact hl y hy
      · rw [List.mem_singleton.mp hy]
        exact ⟨c, _, rfl⟩
    cases hkey' : flights.shared key with
    | none => exact Or.inl rfl
    | some c' =>
      obtain ⟨chain', hc', hrequest, hun'⟩ := (hinv'.exact.inFlight key c').mp hkey'
      cases hstep with
      | @answer _ x tr op k r shared hi _ =>
        -- the key has been held by this chain all along
        obtain ⟨hold, -⟩ := exists_unfinished_answered.mp ⟨chain', hc', hrequest, hun'⟩
        have hcc' := (hinv.exact.inFlight key c').mpr hold
        rw [hkey, Option.some.injEq] at hcc'
        refine Or.inr ⟨c', chain', rfl, hc', hun', ?_⟩
        rw [hi, Option.some.injEq] at hc
        rw [Pool.getElem?_answered, if_pos hcc', ← hcc', hi, Option.map_some,
          Option.some.injEq] at hc'
        rw [← hc', List.length_append, List.length_singleton]
        rw [← hc] at hn
        exact Nat.add_le_add_right hn 1

/-- **No key stays stuck**: left to themselves, the chains release it. -/
theorem Caches.Invariant.exists_released (h : s.Invariant) (key : JsString) : ∃ l s',
    Transition.Run Step s l s' ∧ (∀ y ∈ l, ∃ c event, y.2 = .chain c event) ∧
    s'.shared.shared key = none := by
  obtain ⟨l, s', hrun, hinv, hl, -, hnone | ⟨c, chain, -, hc, hun, hn⟩⟩ := h.exists_run key 3
  · exact ⟨l, s', hrun, hl, hnone⟩
  · exact absurd hn (not_le.mpr (hinv.exact.progress hc hun).1)

/-! ## Single flight -/

/-- What a caller that missed has come to: its chain is about to be looked up, or it waits for a
chain of its key, or it has received the outcome of that chain. -/
inductive Missed (s : Caches F V E) (x : GetOrSet F) (rest : Caching F V E (Option V)) :
    List (Event (CacheCall.Res (F := F) V E)) → Prop
  | looking : Missed s x rest [⟨.cacheGet x.key, .ok none⟩]
  | waiting (c : ℕ) (chain : Chain F V E) : s.shared.processes[c]? = some chain →
      chain.request.key = x.key →
      Missed s x rest [⟨.cacheGet x.key, .ok none⟩, ⟨.flight x, c⟩]
  | received (c : ℕ) (chain : Chain F V E) (out : Except E (Option V)) :
      s.shared.processes[c]? = some chain → chain.request.key = x.key →
      FetchChain V E chain.request chain.trace out → rest = .ofExcept out →
      Missed s x rest [⟨.cacheGet x.key, .ok none⟩, ⟨.flight x, c⟩, ⟨.promise c, out⟩]

/-- The fetches of the service are in order. -/
structure SingleFlight (s : Caches F V E) : Prop where
  /-- One fetch for a key at a time. -/
  fetching : ∀ (c c' : ℕ) (chain chain' : Chain F V E), s.shared.processes[c]? = some chain →
    s.shared.processes[c']? = some chain' → chain.request.key = chain'.request.key →
    (∃ fetchFn, chain.pending = some (.fetchFn fetchFn)) →
    (∃ fetchFn, chain'.pending = some (.fetchFn fetchFn)) → c = c'
  /-- Every caller that missed gets what one chain of its key comes to. -/
  missed : ∀ caller ∈ s.processes, ⟨.cacheGet caller.request.key, .ok none⟩ ∈ caller.trace →
    Missed s caller.request caller.rest caller.trace
  /-- The map holds the chains whose `finally` part has not run. -/
  inFlight : ∀ key c, s.shared.shared key = some c ↔ ∃ chain, s.shared.processes[c]? = some chain ∧
    chain.request.key = key ∧ Unfinished chain
  /-- A miss with no chain under way for the key starts a fetch. -/
  again : ∀ s' i x c, Caches.Step s (.caller (.answer i ⟨.flight x, c⟩)) s' →
    (∀ chain ∈ s.shared.processes, chain.request.key = x.key → ¬Unfinished chain) →
    s'.shared.processes = s.shared.processes ++ [⟨x, [], fetchChain x⟩] ∧
      c = s.shared.processes.length
  /-- A chain under way can go on, whatever its calls are answered with. -/
  progress : ∀ (c : ℕ) (chain : Chain F V E), s.shared.processes[c]? = some chain →
    Unfinished chain → chain.trace.length < 3 ∧ ∃ op, chain.pending = some op ∧
      ∀ r, ∃ s', Caches.Step s (.chain c ⟨op, r⟩) s'
  /-- Every key is released. -/
  released : ∀ key, ∃ l s', Transition.Run Caches.Step s l s' ∧
    (∀ y ∈ l, ∃ c event, y.2 = .chain c event) ∧ s'.shared.shared key = none
  /-- `null` is not sent to the cache. -/
  null : ∀ chain ∈ s.shared.processes, ∀ key ttl,
    chain.pending ≠ some (.cacheSet key none ttl) ∧ ∀ r, ⟨.cacheSet key none ttl, r⟩ ∉ chain.trace

theorem Caller.length_le {tr : List (Event (CacheCall.Res (F := F) V E))} (h : Caller E x tr out) :
    tr.length ≤ 3 := by
  cases h <;> simp

theorem Caches.Invariant.rest_eq (h : s.Invariant)
    {caller : Process (GetOrSet F) (CacheCall.Res (F := F) V E) E (Option V)}
    (hcaller : caller ∈ s.processes) {c : ℕ} (htrace : caller.trace =
      [⟨.cacheGet caller.request.key, .ok none⟩, ⟨.flight caller.request, c⟩, ⟨.promise c, out⟩]) :
    caller.rest = .ofExcept out := by
  have hsettled (out' : Except E (Option V)) (hrest : caller.rest = .ofExcept out') :
      out' = out := by
    have hall := eval_getOrSet (h.valid.eval_of_rest hcaller hrest)
    rw [htrace] at hall
    cases hall
    rfl
  cases hrest : caller.rest with
  | pure a => rw [← hsettled (.ok a) hrest, Program.ofExcept]
  | throw e => rw [← hsettled (.error e) hrest, Program.ofExcept]
  | call op k =>
    -- there is no fourth call
    obtain ⟨rest, out', heval⟩ := h.valid.pending hcaller
      (Process.pending_eq_some_iff.mpr ⟨k, hrest⟩) (Classical.arbitrary _)
    have hlength := (eval_getOrSet heval).length_le
    simp only [htrace, List.length_append, List.length_cons] at hlength
    omega

theorem Caches.Invariant.missed (h : s.Invariant)
    {caller : Process (GetOrSet F) (CacheCall.Res (F := F) V E) E (Option V)}
    (hcaller : caller ∈ s.processes)
    (hmiss : ⟨.cacheGet caller.request.key, .ok none⟩ ∈ caller.trace) :
    Missed s caller.request caller.rest caller.trace := by
  have htold := h.told caller hcaller
  obtain ⟨rest, out, heval⟩ := (h.valid caller hcaller).exists_eval
  have hall := eval_getOrSet heval
  generalize hl : caller.trace ++ rest = l at hall
  cases hall with
  | unread e =>
    have hmem : ⟨.cacheGet caller.request.key, .ok none⟩ ∈ caller.trace ++ rest :=
      List.mem_append_left _ hmiss
    simp [hl] at hmem
  | hit value =>
    have hmem : ⟨.cacheGet caller.request.key, .ok none⟩ ∈ caller.trace ++ rest :=
      List.mem_append_left _ hmiss
    simp [hl] at hmem
  | missed c out =>
    -- by how many of its three calls have been answered
    rcases htrace : caller.trace with _ | ⟨y₁, _ | ⟨y₂, _ | ⟨y₃, tr⟩⟩⟩
    · rw [htrace] at hmiss
      cases hmiss
    all_goals
      have hflight := htold.flight c
      have hpromise := htold.promise c
      have hrest (heq : caller.trace = [⟨.cacheGet caller.request.key, .ok none⟩,
          ⟨.flight caller.request, c⟩, ⟨.promise c, out⟩]) : caller.rest = .ofExcept out :=
        h.rest_eq hcaller heq
      rw [htrace] at hl hflight hpromise hrest
    · obtain ⟨rfl, -⟩ := List.cons.inj hl
      exact .looking
    · obtain ⟨rfl, htail⟩ := List.cons.inj hl
      obtain ⟨rfl, -⟩ := List.cons.inj htail
      obtain ⟨chain, hc, hkey⟩ := hflight (by simp)
      exact .waiting c chain hc hkey
    · simp only [List.cons_append, List.cons.injEq] at hl
      obtain ⟨rfl, rfl, rfl, htail⟩ := hl
      obtain rfl : tr = [] := (List.append_eq_nil_iff.mp htail).1
      obtain ⟨chain, hc, hkey⟩ := hflight (by simp)
      obtain ⟨chain', hc', hrest'⟩ := hpromise out (by simp)
      rw [hc, Option.some.injEq] at hc'
      rw [← hc'] at hrest'
      exact .received c chain out hc hkey
        (eval_fetchChain (h.exact.valid.eval_of_rest (List.mem_of_getElem? hc) hrest')) (hrest rfl)

/-- **Single flight.** In every state of every run, whatever callers, reads and fetches do. -/
theorem getOrSet_singleFlight (hrun : Transition.Run Caches.Step .initial l s) :
    SingleFlight s := by
  have h := Caches.invariant hrun
  refine ⟨fun c c' chain chain' hc hc' hkey ⟨f, hf⟩ ⟨f', hf'⟩ ↦ ?_, fun caller ↦ h.missed,
    h.exact.inFlight, fun s' i x c hs hnone ↦ ?_, fun c chain hc hun ↦ ?_, h.exists_released,
    fun chain hchain key ttl ↦ ⟨fun hpending ↦ ?_, fun r hmem ↦ ?_⟩⟩
  · exact h.exact.unique hc hc' hkey (h.exact.unfinished_of_fetching hc hf)
      (h.exact.unfinished_of_fetching hc' hf')
  · cases hs with
    | caller hs =>
      cases hs with
      | answer hi hanswer =>
        have hkey : s.shared.shared x.key = none := by
          rw [Option.eq_none_iff_forall_ne_some]
          intro c hc
          obtain ⟨chain, hchain, hkey, hun⟩ := (h.exact.inFlight x.key c).mp hc
          exact hnone chain (List.mem_of_getElem? hchain) hkey hun
        simp only [Answers, hkey, Option.isSome_none, Bool.false_eq_true, if_false] at hanswer
        obtain ⟨rfl, rfl⟩ := hanswer
        exact ⟨rfl, rfl⟩
  · obtain ⟨hlength, op, hpending, hstep⟩ := h.exact.progress hc hun
    refine ⟨hlength, op, hpending, fun r ↦ ?_⟩
    obtain ⟨flights, hs⟩ := hstep r
    exact ⟨_, .chain hs⟩
  · obtain ⟨rest, out, heval⟩ := h.exact.valid.pending hchain hpending (.ok ())
    exact (eval_fetchChain heval).ne_null ttl (.ok ()) (List.mem_append_right _ List.mem_cons_self)
  · obtain ⟨rest, out, heval⟩ := (h.exact.valid chain hchain).exists_eval
    exact (eval_fetchChain heval).ne_null ttl r (List.mem_append_left _ hmem)

/-! ## Two callers -/

/-- A call of `getOrSet`. -/
def lookup : GetOrSet Unit := ⟨[107], (), none⟩

/-- Two callers miss one after the other, and one fetch answers both. -/
theorem getOrSet_singleFlight_coalesced : ∃ l s, Transition.Run Caches.Step
    (.initial : Caches Unit ℕ Unit) l s ∧ s.shared.processes.length = 1 ∧
    s.processes.map Process.rest = [.pure (some 5), .pure (some 5)] ∧ SingleFlight s := by
  have hcalls : Transition.Run Caches.Step (.initial : Caches Unit ℕ Unit) _ _ :=
    (Transition.Run.nil.snoc (.caller (.accept lookup))).snoc (.caller (.accept lookup))
  have hmisses := (hcalls.snoc (.caller (.answer (i := 0) (r := .ok none) rfl rfl))).snoc
    (.caller (.answer (i := 1) (r := .ok none) rfl rfl))
  have hflights := (hmisses.snoc (.caller (.answer (i := 0) (r := (0 : ℕ)) rfl ⟨rfl, rfl⟩))).snoc
    (.caller (.answer (i := 1) (r := (0 : ℕ)) rfl ⟨rfl, rfl⟩))
  have hfetch := hflights.snoc (.chain (.answer (i := 0) (r := .ok (some 5)) rfl
    (show FetchAnswers _ (.fetchFn ()) _ _ from rfl)))
  have hset := hfetch.snoc (.chain (.answer (i := 0) (r := .ok ()) rfl
    (show FetchAnswers _ (.cacheSet [107] (some 5) none) _ _ from rfl)))
  have hchain := hset.snoc (.chain (.answer (i := 0) (r := ()) rfl
    (show FetchAnswers _ (.inFlightDelete [107]) _ _ from rfl)))
  have hrun := (hchain.snoc (.caller (.answer (i := 0) (r := .ok (some 5)) rfl
    ⟨rfl, _, rfl, rfl⟩))).snoc
      (.caller (.answer (i := 1) (r := .ok (some 5)) rfl ⟨rfl, _, rfl, rfl⟩))
  exact ⟨_, _, hrun, rfl, rfl, getOrSet_singleFlight hrun⟩

end JudgeIt
