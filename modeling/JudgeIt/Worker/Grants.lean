import JudgeIt.Data.Table
import JudgeIt.Transition.Run
import JudgeIt.Worker.Semaphore

/-!
# Calls to the box semaphore

The semaphore is driven by its callers: a box may be acquired at any time, and a box that is held
may be released. `Boxing` keeps, beside the semaphore, what the callers have done and which boxes
they got. A caller is known by the number of its `acquire`.

Two facts hold after any calls. The held boxes and the free ones are all the boxes, each once. And
the callers that got a box, in the order they got it, followed by those that wait, are all callers
in the order they called: that one equation says that nobody is passed over and nobody is served
twice. What a release does for those that wait follows from it, with the number of a waiter fixing
the release that serves it.
-/

namespace JudgeIt

open Transition

/-- A call to the semaphore. -/
inductive SemaphoreCall
  | acquire
  | release (boxId : ℕ)
  deriving DecidableEq

/-- The box a call releases. -/
def SemaphoreCall.released : SemaphoreCall → Option ℕ
  | acquire => none
  | release boxId => some boxId

/-- The semaphore, with the calls made so far. -/
structure Boxing where
  service : SemaphoreService ℕ
  /-- The number of `acquire` calls so far, which is the number of the next one. -/
  acquires : ℕ
  /-- The numbers of the calls that got a box, with their boxes, in the order of the grants. -/
  granted : List (ℕ × ℕ)
  /-- The boxes that were granted and have not been released since. -/
  held : List ℕ

namespace Boxing

/-- A new semaphore. -/
def init (workers : ℕ) : Boxing := ⟨.ofWorkers workers, 0, [], []⟩

/-- One call. -/
def call (s : Boxing) : SemaphoreCall → Boxing
  | .acquire =>
    { service := (s.service.acquire s.acquires).2
      acquires := s.acquires + 1
      granted := s.granted ++ ((s.service.acquire s.acquires).1.map fun b ↦ (s.acquires, b)).toList
      held := s.held ++ (s.service.acquire s.acquires).1.toList }
  | .release boxId =>
    { service := (s.service.release boxId).2
      acquires := s.acquires
      granted := s.granted ++ ((s.service.release boxId).1.map fun w ↦ (w, boxId)).toList
      held := s.held.erase boxId ++ ((s.service.release boxId).1.map fun _ ↦ boxId).toList }

/-- Only what is held is released. -/
def Permitted (s : Boxing) : SemaphoreCall → Prop
  | .acquire => True
  | .release boxId => boxId ∈ s.held

/-- One permitted call. -/
def Step (s : Boxing) (c : SemaphoreCall) (s' : Boxing) : Prop := s.Permitted c ∧ s' = s.call c

/-- The boxes released in a run, in order. -/
def released (l : List (Boxing × SemaphoreCall)) : List ℕ := l.filterMap fun x ↦ x.2.released

variable {s s' : Boxing} {c : SemaphoreCall} {workers b k w : ℕ}
  {l l' : List (Boxing × SemaphoreCall)}

theorem released_acquire : released (l ++ [(s, .acquire)]) = released l := by
  rw [released, List.filterMap_append]
  exact List.append_nil _

theorem released_release : released (l ++ [(s, .release b)]) = released l ++ [b] := by
  rw [released, List.filterMap_append]
  rfl

/-! ## What a call does -/

/-- An `acquire` is granted the first free box, or waits behind all others. -/
theorem call_acquire_cases (s : Boxing) :
    (∃ b, s.service.availableBoxes = b :: (s.call .acquire).service.availableBoxes ∧
      s.service.queue = [] ∧ (s.call .acquire).service.queue = [] ∧
      (s.call .acquire).granted = s.granted ++ [(s.acquires, b)] ∧
      (s.call .acquire).held = s.held ++ [b]) ∨
    (s.service.availableBoxes = [] ∧ (s.call .acquire).service.availableBoxes = [] ∧
      (s.call .acquire).service.queue = s.service.queue ++ [s.acquires] ∧
      (s.call .acquire).granted = s.granted ∧ (s.call .acquire).held = s.held) := by
  rcases s.service.acquire_cases s.acquires with ⟨b, hfree, hgrant, hqueue⟩ |
    ⟨hfree, hgrant, hfree', hqueue⟩
  · have hempty : s.service.queue = [] := by
      by_contra hne
      have hcount := s.service.count_eq_zero hne
      rw [s.service.count_eq, hfree] at hcount
      cases hcount
    refine Or.inl ⟨b, hfree, hempty, hqueue.trans hempty, ?_, ?_⟩
    · simp [call, hgrant]
    · simp [call, hgrant]
  · refine Or.inr ⟨hfree, hfree', hqueue, ?_, ?_⟩
    · simp [call, hgrant]
    · simp [call, hgrant]

/-- A `release` hands the box to the first that waits, or frees it when nobody does. -/
theorem call_release_cases (s : Boxing) (b : ℕ) :
    (∃ w, s.service.queue = w :: (s.call (.release b)).service.queue ∧
      (s.call (.release b)).service.availableBoxes = s.service.availableBoxes ∧
      (s.call (.release b)).granted = s.granted ++ [(w, b)] ∧
      (s.call (.release b)).held = s.held.erase b ++ [b]) ∨
    (s.service.queue = [] ∧ (s.call (.release b)).service.queue = [] ∧
      (s.call (.release b)).service.availableBoxes = s.service.availableBoxes ++ [b] ∧
      (s.call (.release b)).granted = s.granted ∧
      (s.call (.release b)).held = s.held.erase b) := by
  rcases s.service.release_cases b with ⟨w, hqueue, hnext, hfree⟩ | ⟨hqueue, hnext, hqueue', hfree⟩
  · refine Or.inl ⟨w, hqueue, hfree, ?_, ?_⟩
    · simp [call, hnext]
    · simp [call, hnext]
  · refine Or.inr ⟨hqueue, hqueue', hfree, ?_, ?_⟩
    · simp [call, hnext]
    · simp [call, hnext]

/-! ## Boxes and callers -/

/-- **The semaphore's invariant.** -/
structure Exact (workers : ℕ) (s : Boxing) : Prop where
  /-- Held and free boxes together are all boxes, each once. -/
  boxes : (s.held ++ s.service.availableBoxes).Perm (List.range workers)
  /-- Those that got a box and then those that wait are all callers, in the order they called. -/
  order : s.granted.map Prod.fst ++ s.service.queue = List.range s.acquires

theorem Exact.init (workers : ℕ) : Exact workers (init workers) := ⟨List.Perm.refl _, rfl⟩

theorem Exact.acquire (h : Exact workers s) : Exact workers (s.call .acquire) := by
  have hnext : (s.call .acquire).acquires = s.acquires + 1 := rfl
  rcases s.call_acquire_cases with ⟨b, hfree, hempty, hempty', hgranted, hheld⟩ |
    ⟨hfree, hfree', hqueue, hgranted, hheld⟩
  · constructor
    · rw [hheld, List.append_assoc, List.singleton_append, ← hfree]
      exact h.boxes
    · have horder := h.order
      rw [hempty, List.append_nil] at horder
      rw [hgranted, hempty', hnext, List.append_nil, List.map_append, horder, List.range_succ]
      rfl
  · constructor
    · have hboxes := h.boxes
      rw [hfree] at hboxes
      rwa [hheld, hfree']
    · rw [hgranted, hqueue, hnext, ← List.append_assoc, h.order, List.range_succ]

theorem Exact.release (h : Exact workers s) (hb : b ∈ s.held) :
    Exact workers (s.call (.release b)) := by
  have hnext : (s.call (.release b)).acquires = s.acquires := rfl
  have hperm : (s.held.erase b ++ [b]).Perm s.held :=
    List.perm_append_comm.trans (List.perm_cons_erase hb).symm
  rcases s.call_release_cases b with ⟨w, hqueue, hfree, hgranted, hheld⟩ |
    ⟨hempty, hempty', hfree, hgranted, hheld⟩
  · constructor
    · rw [hheld, hfree]
      exact (hperm.append_right _).trans h.boxes
    · have horder := h.order
      rw [hqueue] at horder
      rw [hgranted, hnext, List.map_append, List.append_assoc, ← horder]
      rfl
  · constructor
    · -- the box moves from the held ones to the end of the free ones
      have hmove : (s.held.erase b ++ (s.service.availableBoxes ++ [b])).Perm
          (s.held.erase b ++ [b] ++ s.service.availableBoxes) := by
        rw [List.append_assoc]
        exact List.perm_append_comm.append_left _
      rw [hheld, hfree]
      exact (hmove.trans (hperm.append_right _)).trans h.boxes
    · rw [hgranted, hempty', hnext, ← h.order, hempty]

theorem Exact.step (h : Exact workers s) (hs : Step s c s') : Exact workers s' := by
  obtain ⟨hc, rfl⟩ := hs
  cases c with
  | acquire => exact h.acquire
  | release b => exact h.release hc

theorem Exact.run (h : Exact workers s) (hrun : Run Step s l s') : Exact workers s' :=
  hrun.invariant' h fun _ _ _ hI hs ↦ hI.step hs

theorem exact_of_run (h : Run Step (init workers) l s) : Exact workers s :=
  (Exact.init workers).run h

theorem Exact.length_eq (h : Exact workers s) :
    s.granted.length + s.service.queue.length = s.acquires := by
  have hlength := congrArg List.length h.order
  rwa [List.length_append, List.length_map, List.length_range] at hlength

theorem Exact.fst_eq (h : Exact workers s) {x : ℕ × ℕ} (hx : s.granted[k]? = some x) : x.1 = k := by
  have hk : k < (s.granted.map Prod.fst).length := by
    rw [List.length_map]
    exact (List.getElem?_eq_some_iff.mp hx).1
  refine List.eq_of_getElem?_range (n := s.acquires) ?_
  rw [← h.order, List.getElem?_append_left hk, List.getElem?_map, hx]
  rfl

theorem Exact.mem_granted_iff (h : Exact workers s) :
    (w, b) ∈ s.granted ↔ (s.granted.map Prod.snd)[w]? = some b := by
  rw [List.getElem?_map]
  constructor
  · intro hmem
    obtain ⟨k, hk⟩ := List.mem_iff_getElem?.mp hmem
    obtain rfl : w = k := h.fst_eq hk
    rw [hk]
    rfl
  · intro hget
    obtain ⟨⟨w', b'⟩, hx, rfl⟩ := Option.map_eq_some_iff.mp hget
    obtain rfl : w' = w := h.fst_eq hx
    exact List.mem_of_getElem? hx

theorem Exact.eq_of_waits (h : Exact workers s) (hk : s.service.queue[k]? = some w) :
    w = s.granted.length + k := by
  refine List.eq_of_getElem?_range (n := s.acquires) ?_
  rw [← h.order, List.getElem?_append_right (by rw [List.length_map]; exact Nat.le_add_right _ _),
    List.length_map, Nat.add_sub_cancel_left, hk]

/-! ## Those that wait are served by the next releases -/

/-- After calls that released the boxes `r`: nothing granted is taken back, and as far as callers
waited, the boxes granted since are those released. -/
structure Serves (s : Boxing) (r : List ℕ) (s' : Boxing) : Prop where
  acquires_le : s.acquires ≤ s'.acquires
  length_le : s.granted.length ≤ s'.granted.length
  boxes : ((s'.granted.drop s.granted.length).map Prod.snd).take s.service.queue.length
    = r.take s.service.queue.length

theorem Serves.refl (s : Boxing) : Serves s [] s where
  acquires_le := le_rfl
  length_le := le_rfl
  boxes := by rw [List.drop_length]; rfl

theorem Serves.queue_length_le {r : List ℕ} (h : Serves s r s') (hs : Exact workers s)
    (hs' : Exact workers s') (hempty : s'.service.queue = []) :
    s.service.queue.length ≤ ((s'.granted.drop s.granted.length).map Prod.snd).length := by
  have hlength := hs.length_eq
  have hlength' := hs'.length_eq
  have hle := h.acquires_le
  rw [hempty, List.length_nil] at hlength'
  rw [List.length_map, List.length_drop]
  omega

theorem Serves.acquire {r : List ℕ} (h : Serves s r s') (hs : Exact workers s)
    (hs' : Exact workers s') : Serves s r (s'.call .acquire) := by
  have hnext : s.acquires ≤ (s'.call .acquire).acquires := h.acquires_le.trans (Nat.le_succ _)
  rcases s'.call_acquire_cases with ⟨b, -, hempty, -, hgranted, -⟩ | ⟨-, -, -, hgranted, -⟩
  · refine ⟨hnext, ?_, ?_⟩
    · rw [hgranted, List.length_append]
      exact h.length_le.trans (Nat.le_add_right _ _)
    · -- a box is free, so nobody waits, and the grant comes after all that matter
      rw [hgranted, List.drop_append_of_le_length h.length_le, List.map_append,
        List.take_append_of_le_length (h.queue_length_le hs hs' hempty)]
      exact h.boxes
  · refine ⟨hnext, ?_, ?_⟩
    · rw [hgranted]
      exact h.length_le
    · rw [hgranted]
      exact h.boxes

theorem Serves.release {r : List ℕ} (h : Serves s r s') (hs : Exact workers s)
    (hs' : Exact workers s') (b : ℕ) : Serves s (r ++ [b]) (s'.call (.release b)) := by
  rcases s'.call_release_cases b with ⟨w, -, -, hgranted, -⟩ | ⟨hempty, -, -, hgranted, -⟩
  · refine ⟨h.acquires_le, ?_, ?_⟩
    · rw [hgranted, List.length_append]
      exact h.length_le.trans (Nat.le_add_right _ _)
    · rw [hgranted, List.drop_append_of_le_length h.length_le, List.map_append]
      exact List.take_append_singleton_congr h.boxes b
  · refine ⟨h.acquires_le, ?_, ?_⟩
    · rw [hgranted]
      exact h.length_le
    · -- nobody waits: the releases so far have served all that did
      have hserved := h.queue_length_le hs hs' hempty
      have hreleased : s.service.queue.length ≤ r.length := by
        have hlength := congrArg List.length h.boxes
        rw [List.length_take_of_le hserved, List.length_take] at hlength
        omega
      rw [hgranted, List.take_append_of_le_length hreleased]
      exact h.boxes

theorem Exact.serves (h : Exact workers s) (hrun : Run Step s l s') : Serves s (released l) s' := by
  induction hrun with
  | nil => exact Serves.refl s
  | @snoc l t t' c hrun hstep ih =>
    obtain ⟨-, rfl⟩ := hstep
    cases c with
    | acquire =>
      rw [released_acquire]
      exact ih.acquire h (h.run hrun)
    | release b =>
      rw [released_release]
      exact ih.release h (h.run hrun) b

/-- In place `k` of the queue, a caller gets a box by the release of that number from here on, and
gets what it releases. -/
theorem Exact.granted_iff (h : Exact workers s) (hrun : Run Step s l s')
    (hk : s.service.queue[k]? = some w) :
    (w, b) ∈ s'.granted ↔ (released l)[k]? = some b := by
  have hlt : k < s.service.queue.length := (List.getElem?_eq_some_iff.mp hk).1
  have hboxes := congrArg (·[k]?) (h.serves hrun).boxes
  simp only [List.getElem?_take_of_lt hlt, List.map_drop, List.getElem?_drop] at hboxes
  rw [(h.run hrun).mem_granted_iff, h.eq_of_waits hk, hboxes]

/-! ## First come, first served -/

/-- **The semaphore after any calls.** Held and free boxes are all boxes, each once, and the counter
counts the free ones. Nobody waits while one is free. Boxes are granted in the order of the
`acquire` calls; and whatever is called next, who waits in place `k` is granted a box by release `k`
from now on and by nothing else. -/
theorem semaphore_exact (h : Run Step (init workers) l s) :
    (s.held ++ s.service.availableBoxes).Perm (List.range workers) ∧
      s.service.available = s.service.availableBoxes.length ∧
      (s.service.queue ≠ [] → s.service.count = 0) ∧
      s.granted.map Prod.fst ++ s.service.queue = List.range s.acquires ∧
      ∀ (l' : List (Boxing × SemaphoreCall)) (s' : Boxing), Run Step s l' s' → ∀ k w : ℕ,
        s.service.queue[k]? = some w → ∀ b, (w, b) ∈ s'.granted ↔ (released l')[k]? = some b := by
  have hs := exact_of_run h
  refine ⟨hs.boxes, s.service.available_eq_length, s.service.count_eq_zero, hs.order, ?_⟩
  intro l' s' hrun k w hk b
  exact hs.granted_iff hrun hk

/-- One box and two callers. -/
def twoCallers : Boxing := ((init 1).call .acquire).call .acquire

/-- The second caller waits, and gets the box when the first releases it. -/
theorem semaphore_exact_twoCallers :
    (twoCallers.held ++ twoCallers.service.availableBoxes).Perm (List.range 1) ∧
      twoCallers.service.queue = [1] ∧ (1, 0) ∈ (twoCallers.call (.release 0)).granted := by
  have hrun : Run Step (init 1) [(init 1, .acquire), ((init 1).call .acquire, .acquire)]
      twoCallers := (Run.nil.snoc (l := []) ⟨trivial, rfl⟩).snoc ⟨trivial, rfl⟩
  obtain ⟨hboxes, -, -, -, hserved⟩ := semaphore_exact hrun
  have hrelease : Run Step twoCallers [(twoCallers, .release 0)] (twoCallers.call (.release 0)) :=
    Run.nil.snoc (l := []) ⟨List.mem_singleton_self 0, rfl⟩
  exact ⟨hboxes, rfl, (hserved _ _ hrelease 0 1 rfl 0).mpr rfl⟩

end Boxing

end JudgeIt
