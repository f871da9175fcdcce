import JudgeIt.Async.Environment
import JudgeIt.Data.Table
import JudgeIt.Transition.Run
import JudgeIt.Worker.OffsetTracker
import JudgeIt.Worker.Semaphore

/-!
# The worker manager as a transition system

`WorkerManagerService` consumes a Kafka topic. Each delivered message is tracked, waits for a
sandbox box, is judged by `JudgeService.judgeSubmission` while holding the box, and in a `finally`
block gives the box back, lifts the backpressure and commits what has become safe to commit.

JavaScript runs the code between two awaits without interruption, so a step of the system is one
such stretch: the functions `eachMessage`, `processMessage` and `finallyBlock` below are those
stretches, and everything between them may interleave in any order. What the code awaits are the
box (granted by another message's `release`), the calls made inside `judgeSubmission`, and the
offset commit.

## What is outside

The judge is a parameter, a program in the sense of `Async.Program`: the manager relies on nothing
but its settling, and the environment that answers its calls is a parameter too. Of `kafkajs` the
model has the paused partitions of the topic, the fetch positions, the commit requests and the
position stored at the broker. A commit request may arrive at the broker at any time after it was
issued, more than once, or never, independently of how its promise settles: late, reordered and
failed commits are all covered. Deliveries are not restricted here; theorems that need Kafka's
per-partition order say so.
-/

namespace JudgeIt

open Async

/-! ## Messages and their handlers -/

/-- A delivered message. Its value is `none` when Kafka carries no bytes for it, and otherwise what
`JSON.parse(message.toString())` makes of the bytes. -/
structure Message (ε P : Type) where
  partition : ℕ
  offset : ℤ
  value : Option (Except ε P)

/-- Where the handler of one message stands between two awaits. -/
inductive Phase {Op : Type} (Res : Op → Type) (ε V : Type)
  /-- In `await this.semaphore.acquire()`, its `resolve` in the queue. -/
  | waiting
  /-- The box has been granted; `processMessage` has not started. -/
  | granted (boxId : ℕ)
  /-- In `await this.judgeService.judgeSubmission(payload, boxId)`, with what is left of it. -/
  | judging (boxId : ℕ) (judge : Program Res ε V)
  /-- In `await this.consumer.commitOffsets(..)`. -/
  | committing
  /-- `processMessage` settled through its `finally` block. -/
  | settled
  /-- `processMessage` returned early, on a message without a value. -/
  | skipped (boxId : ℕ)

/-- The box a handler was granted and has not released. -/
def Phase.box {Op : Type} {Res : Op → Type} {ε V : Type} : Phase Res ε V → Option ℕ
  | granted b | judging b _ | skipped b => some b
  | waiting | committing | settled => none

/-- A message with the phase of its handler. -/
structure Handler {Op : Type} (Res : Op → Type) (ε P V : Type) where
  message : Message ε P
  phase : Phase Res ε V

/-- What happened, for the record: no function reads it. -/
inductive Happened {Op : Type} (Res : Op → Type) (ε V : Type)
  /-- The `acquire` promise of handler `i` was resolved with a box. -/
  | granted (i boxId : ℕ)
  /-- Handler `i` got the response to one of its judge's calls. -/
  | called (i : ℕ) (event : Event Res)
  /-- The judge of handler `i` settled. -/
  | judged (i : ℕ) (out : Except ε V)
  /-- Handler `i` called `semaphore.release`. -/
  | released (i boxId : ℕ)
  /-- Handler `i` called `offsetTracker.complete`. -/
  | completed (i : ℕ)

/-! ## The state -/

/-- What a consumer starts from: it fetches from the committed position where there is one. -/
structure GroupOffsets where
  committed : ℕ → Option ℤ
  fetch : ℕ → ℤ
  fetch_eq : ∀ {p c}, committed p = some c → fetch p = c

/-- The Kafka consumer and, behind it, the broker. -/
structure Consumer where
  /-- The partitions of the topic that are paused. -/
  paused : Finset ℕ
  /-- One past the last offset delivered. -/
  fetchPosition : ℕ → ℤ
  /-- The commit requests issued so far, as partition and position. -/
  commits : List (ℕ × ℤ)
  /-- The position stored at the broker. -/
  committed : ℕ → Option ℤ

namespace Consumer

/-- `pause([{ topic }])`: every assigned partition of the topic. -/
def pauseTopic (c : Consumer) (assigned : List ℕ) : Consumer :=
  { c with paused := c.paused ∪ assigned.toFinset }

/-- `resume([{ topic, partitions: [partition] }])`. -/
def resume (c : Consumer) (partition : ℕ) : Consumer :=
  { c with paused := c.paused.erase partition }

/-- `commitOffsets([{ topic, partition, offset }])`, up to its `await`. -/
def commitOffsets (c : Consumer) (partition : ℕ) (position : ℤ) : Consumer :=
  { c with commits := c.commits ++ [(partition, position)] }

/-- A message of the partition has been fetched. -/
def fetched (c : Consumer) (partition : ℕ) (offset : ℤ) : Consumer :=
  { c with fetchPosition := Function.update c.fetchPosition partition (offset + 1) }

/-- A commit request reaches the broker. -/
def arrived (c : Consumer) (partition : ℕ) (position : ℤ) : Consumer :=
  { c with committed := Function.update c.committed partition (some position) }

theorem arrived_committed (c : Consumer) (p : ℕ) (position : ℤ) (q : ℕ) :
    (c.arrived p position).committed q = if q = p then some position else c.committed q :=
  Function.update_apply _ _ _ _

end Consumer

variable {Op : Type} {Res : Op → Type} {ε P V ω : Type}

/-- What the manager is configured with and what it has injected. -/
structure Deployment {Op : Type} (Res : Op → Type) (ε P V : Type) where
  /-- `MAX_WORKERS`. -/
  workers : ℕ
  /-- The partitions of the topic assigned to the consumer. -/
  assigned : List ℕ
  /-- `JudgeService.judgeSubmission`. -/
  judgeSubmission : P → ℕ → Program Res ε V

/-- The manager, its consumer, one handler per delivered message, and the outside world. -/
structure ManagerState {Op : Type} (Res : Op → Type) (ε P V ω : Type) where
  /-- Waiters are handlers, by their index. -/
  semaphore : SemaphoreService ℕ
  offsetTracker : OffsetTrackerService
  isPaused : Bool
  consumer : Consumer
  /-- In order of delivery. -/
  handlers : List (Handler Res ε P V)
  world : ω
  history : List (Happened Res ε V)

namespace ManagerState

/-- The manager as constructed, with its consumer assigned. -/
def init (d : Deployment Res ε P V) (group : GroupOffsets) (world : ω) :
    ManagerState Res ε P V ω where
  semaphore := .ofWorkers d.workers
  offsetTracker := .empty
  isPaused := false
  consumer := ⟨∅, group.fetch, [], group.committed⟩
  handlers := []
  world := world
  history := []

/-! ## Stretches of code between two awaits -/

/-- Move a handler to another phase. -/
def setPhase (s : ManagerState Res ε P V ω) (i : ℕ) (phase : Phase Res ε V) :
    ManagerState Res ε P V ω :=
  { s with handlers := s.handlers.modify i fun h ↦ { h with phase := phase } }

/-- Add to the record. -/
def record (s : ManagerState Res ε P V ω) (e : Happened Res ε V) : ManagerState Res ε P V ω :=
  { s with history := s.history ++ [e] }

/-- The `acquire` promise of handler `i` is resolved with a box. -/
def resolve (s : ManagerState Res ε P V ω) (i boxId : ℕ) : ManagerState Res ε P V ω :=
  (s.setPhase i (.granted boxId)).record (.granted i boxId)

/-- The pausing half of `acquireOrPause`. -/
def pauseIfFull (s : ManagerState Res ε P V ω) (d : Deployment Res ε P V) :
    ManagerState Res ε P V ω :=
  if !s.isPaused && s.semaphore.available == 0 then
    { s with isPaused := true, consumer := s.consumer.pauseTopic d.assigned }
  else s

/-- The `eachMessage` callback up to its `await`: track the offset, pause the topic when no box is
free, and ask for a box. -/
def eachMessage (s : ManagerState Res ε P V ω) (d : Deployment Res ε P V) (m : Message ε P) :
    ManagerState Res ε P V ω :=
  let i := s.handlers.length
  let s : ManagerState Res ε P V ω := { s with
    consumer := s.consumer.fetched m.partition m.offset
    offsetTracker := s.offsetTracker.track m.partition m.offset
    handlers := s.handlers ++ [⟨m, .waiting⟩] }
  let s := s.pauseIfFull d
  let (boxId, semaphore) := s.semaphore.acquire i
  let s := { s with semaphore := semaphore }
  match boxId with
  | some boxId => s.resolve i boxId
  | none => s

/-- `this.semaphore.release(boxId)`. -/
def release (s : ManagerState Res ε P V ω) (i boxId : ℕ) : ManagerState Res ε P V ω :=
  let (next, semaphore) := s.semaphore.release boxId
  let s := { s with semaphore := semaphore }.record (.released i boxId)
  match next with
  | some j => s.resolve j boxId
  | none => s

/-- The `finally` block of `processMessage`, up to the commit it may await. -/
def finallyBlock (s : ManagerState Res ε P V ω) (i : ℕ) (m : Message ε P) (boxId : ℕ) :
    ManagerState Res ε P V ω :=
  let s := s.release i boxId
  let s := if s.isPaused then
      { s with consumer := s.consumer.resume m.partition, isPaused := false }
    else s
  let (safeOffset, offsetTracker) := s.offsetTracker.complete m.partition m.offset
  let s := { s with offsetTracker := offsetTracker }.record (.completed i)
  match safeOffset with
  | some safeOffset =>
    { s with consumer := s.consumer.commitOffsets m.partition (safeOffset + 1) }.setPhase i
      .committing
  | none => s.setPhase i .settled

/-- `processMessage` up to its first `await`. An empty message returns before the `try` block; a
parse error falls through `catch` into `finally` at once. -/
def processMessage (s : ManagerState Res ε P V ω) (d : Deployment Res ε P V) (i : ℕ)
    (m : Message ε P) (boxId : ℕ) : ManagerState Res ε P V ω :=
  match m.value with
  | none => s.setPhase i (.skipped boxId)
  | some (.error _) => s.finallyBlock i m boxId
  | some (.ok payload) => s.setPhase i (.judging boxId (d.judgeSubmission payload boxId))

/-! ## What each stretch changes

The only account of the stretches the invariants use: they never unfold one. -/

variable {d : Deployment Res ε P V} {s : ManagerState Res ε P V ω} {i : ℕ} {m : Message ε P} {b : ℕ}

@[simp] theorem setPhase_handlers (phase : Phase Res ε V) :
    (s.setPhase i phase).handlers = s.handlers.modify i fun h ↦ { h with phase := phase } := rfl

@[simp] theorem setPhase_semaphore (phase : Phase Res ε V) :
    (s.setPhase i phase).semaphore = s.semaphore := rfl

@[simp] theorem setPhase_offsetTracker (phase : Phase Res ε V) :
    (s.setPhase i phase).offsetTracker = s.offsetTracker := rfl

@[simp] theorem setPhase_isPaused (phase : Phase Res ε V) :
    (s.setPhase i phase).isPaused = s.isPaused := rfl

@[simp] theorem setPhase_consumer (phase : Phase Res ε V) :
    (s.setPhase i phase).consumer = s.consumer := rfl

@[simp] theorem setPhase_world (phase : Phase Res ε V) :
    (s.setPhase i phase).world = s.world := rfl

@[simp] theorem setPhase_history (phase : Phase Res ε V) :
    (s.setPhase i phase).history = s.history := rfl

/-- A delivery adds one handler, which either takes the first free box or queues for one. -/
theorem eachMessage_cases (s : ManagerState Res ε P V ω) (d : Deployment Res ε P V)
    (m : Message ε P) :
    (∃ b, s.semaphore.availableBoxes = b :: (s.eachMessage d m).semaphore.availableBoxes ∧
      (s.eachMessage d m).semaphore.queue = s.semaphore.queue ∧
      (s.eachMessage d m).handlers = s.handlers ++ [⟨m, .granted b⟩] ∧
      (s.eachMessage d m).history = s.history ++ [.granted s.handlers.length b]) ∨
    (s.semaphore.availableBoxes = [] ∧ (s.eachMessage d m).semaphore.availableBoxes = [] ∧
      (s.eachMessage d m).semaphore.queue = s.semaphore.queue ++ [s.handlers.length] ∧
      (s.eachMessage d m).handlers = s.handlers ++ [⟨m, .waiting⟩] ∧
      (s.eachMessage d m).history = s.history) := by
  have hsem : ∀ s' : ManagerState Res ε P V ω, (s'.pauseIfFull d).semaphore = s'.semaphore ∧
      (s'.pauseIfFull d).handlers = s'.handlers ∧ (s'.pauseIfFull d).history = s'.history := by
    intro s'
    rw [pauseIfFull]
    split <;> exact ⟨rfl, rfl, rfl⟩
  rcases s.semaphore.acquire_cases s.handlers.length with
    ⟨b, hb, hbox, hq⟩ | ⟨hb, hbox, hb', hq⟩
  · refine Or.inl ⟨b, ?_⟩
    simp [eachMessage, hsem, hbox, resolve, record, hb, hq]
  · refine Or.inr ⟨hb, ?_⟩
    simp [eachMessage, hsem, hbox, hb', hq]

theorem eachMessage_offsetTracker :
    (s.eachMessage d m).offsetTracker = s.offsetTracker.track m.partition m.offset := by
  simp only [eachMessage, pauseIfFull]
  split <;> split <;> rfl

theorem eachMessage_world : (s.eachMessage d m).world = s.world := by
  simp only [eachMessage, pauseIfFull]
  split <;> split <;> rfl

theorem eachMessage_fetchPosition : (s.eachMessage d m).consumer.fetchPosition
    = Function.update s.consumer.fetchPosition m.partition (m.offset + 1) := by
  simp only [eachMessage, pauseIfFull]
  split <;> split <;> rfl

theorem eachMessage_commits : (s.eachMessage d m).consumer.commits = s.consumer.commits := by
  simp only [eachMessage, pauseIfFull]
  split <;> split <;> rfl

theorem eachMessage_committed : (s.eachMessage d m).consumer.committed = s.consumer.committed := by
  simp only [eachMessage, pauseIfFull]
  split <;> split <;> rfl

/-- A delivery pauses the topic exactly when it finds no free box and the topic not yet paused. -/
theorem eachMessage_isPaused : (s.eachMessage d m).isPaused
    = (s.isPaused || s.semaphore.available == 0) := by
  simp only [eachMessage, pauseIfFull]
  split <;> split <;> cases hp : s.isPaused <;> simp_all [resolve, record]

theorem eachMessage_paused : (s.eachMessage d m).consumer.paused
    = if !s.isPaused && s.semaphore.available == 0 then s.consumer.paused ∪ d.assigned.toFinset
      else s.consumer.paused := by
  simp only [eachMessage, pauseIfFull]
  split <;> split <;> simp_all [resolve, record, Consumer.pauseTopic, Consumer.fetched]

/-- The phase a handler is left in by its `finally` block. -/
def phaseAfter (s : ManagerState Res ε P V ω) (m : Message ε P) : Phase Res ε V :=
  if (s.offsetTracker.complete m.partition m.offset).1.isSome then .committing else .settled

/-- The `finally` block moves its handler on and passes its box to the first waiter, or frees it
when nobody waits. -/
theorem finallyBlock_cases (s : ManagerState Res ε P V ω) (i : ℕ) (m : Message ε P) (b : ℕ) :
    (∃ j, s.semaphore.queue = j :: (s.finallyBlock i m b).semaphore.queue ∧
      (s.finallyBlock i m b).semaphore.availableBoxes = s.semaphore.availableBoxes ∧
      (s.finallyBlock i m b).handlers = ((s.setPhase j (.granted b)).setPhase i
        (s.phaseAfter m)).handlers ∧
      (s.finallyBlock i m b).history
        = s.history ++ [.released i b, .granted j b, .completed i]) ∨
    (s.semaphore.queue = [] ∧ (s.finallyBlock i m b).semaphore.queue = [] ∧
      (s.finallyBlock i m b).semaphore.availableBoxes = s.semaphore.availableBoxes ++ [b] ∧
      (s.finallyBlock i m b).handlers = (s.setPhase i (s.phaseAfter m)).handlers ∧
      (s.finallyBlock i m b).history = s.history ++ [.released i b, .completed i]) := by
  rcases s.semaphore.release_cases b with ⟨j, hq, hnext, ha⟩ | ⟨hq, hnext, hq', ha⟩
  · refine Or.inl ⟨j, ?_⟩
    cases hc : (s.offsetTracker.complete m.partition m.offset).1 <;>
    cases hp : s.isPaused <;>
    simp [finallyBlock, release, phaseAfter, hnext, hq, ha, hc, hp, resolve, record]
  · refine Or.inr ⟨hq, ?_⟩
    cases hc : (s.offsetTracker.complete m.partition m.offset).1 <;>
    cases hp : s.isPaused <;>
    simp [finallyBlock, release, phaseAfter, hnext, hq', ha, hc, hp, record]

private theorem release_fields (s : ManagerState Res ε P V ω) (i b : ℕ) :
    (s.release i b).offsetTracker = s.offsetTracker ∧ (s.release i b).isPaused = s.isPaused ∧
      (s.release i b).consumer = s.consumer ∧ (s.release i b).world = s.world := by
  simp only [release]
  split <;> exact ⟨rfl, rfl, rfl, rfl⟩

theorem finallyBlock_offsetTracker : (s.finallyBlock i m b).offsetTracker
    = (s.offsetTracker.complete m.partition m.offset).2 := by
  obtain ⟨htracker, hpaused, -, -⟩ := release_fields s i b
  simp only [finallyBlock, hpaused]
  split <;> split <;> simp [htracker, record]

/-- No topic stays marked as paused past a `finally` block. -/
theorem finallyBlock_isPaused : (s.finallyBlock i m b).isPaused = false := by
  simp only [finallyBlock]
  split <;> split <;> simp_all [record]

theorem finallyBlock_world : (s.finallyBlock i m b).world = s.world := by
  obtain ⟨-, -, -, hworld⟩ := release_fields s i b
  simp only [finallyBlock]
  split <;> split <;> simp [hworld, record]

/-- What the `finally` block does to the consumer: it resumes its own partition if the topic was
marked as paused, and requests at most one commit. -/
theorem finallyBlock_consumer : (s.finallyBlock i m b).consumer =
    { s.consumer with
      paused := if s.isPaused then s.consumer.paused.erase m.partition else s.consumer.paused
      commits := s.consumer.commits ++
        ((s.offsetTracker.complete m.partition m.offset).1.map fun o ↦
          (m.partition, o + 1)).toList } := by
  obtain ⟨htracker, hpaused, hconsumer, -⟩ := release_fields s i b
  cases hc : (s.offsetTracker.complete m.partition m.offset).1 <;>
  cases hp : s.isPaused <;>
  simp [finallyBlock, htracker, hpaused, hconsumer, hc, hp, record, Consumer.resume,
    Consumer.commitOffsets]

end ManagerState

/-! ## Steps -/

/-- One step of the system, by the event that triggers it. -/
inductive Action {Op : Type} (Res : Op → Type) (ε P ω : Type)
  /-- Kafka delivers a message. -/
  | deliver (m : Message ε P)
  /-- Handler `i`, granted a box, goes on to `processMessage`. -/
  | start (i : ℕ)
  /-- A call of the judge of handler `i` is answered. -/
  | respond (i : ℕ) (event : Event Res)
  /-- The judge of handler `i` has settled, and `processMessage` goes on. -/
  | finish (i : ℕ)
  /-- The `n`-th commit request reaches the broker. -/
  | arrive (n : ℕ)
  /-- The commit awaited by handler `i` settles, either way. -/
  | settle (i : ℕ)
  /-- The rest of the application changes the world. -/
  | interfere (world : ω)

/-- The message whose `finally` block the action runs, if it runs one. -/
def ManagerState.finallyOf (s : ManagerState Res ε P V ω) :
    Action Res ε P ω → Option (Message ε P)
  | .start i => match s.handlers[i]? with
    | some ⟨m, .granted _⟩ => match m.value with
      | some (.error _) => some m
      | _ => none
    | _ => none
  | .finish i => s.handlers[i]?.map Handler.message
  | _ => none

/-- The transition relation. `E` answers the calls of the judge, and `other` is what the rest of
the application may do to the world meanwhile. -/
inductive Step (d : Deployment Res ε P V) (E : Env ω Res) (other : ω → ω → Prop) :
    ManagerState Res ε P V ω → Action Res ε P ω → ManagerState Res ε P V ω → Prop
  | deliver {s m} : m.partition ∈ d.assigned → Step d E other s (.deliver m) (s.eachMessage d m)
  | start {s i m b} : s.handlers[i]? = some ⟨m, .granted b⟩ →
      Step d E other s (.start i) (s.processMessage d i m b)
  | respond {s i m b op k r world} : s.handlers[i]? = some ⟨m, .judging b (.call op k)⟩ →
      E s.world op r world →
      Step d E other s (.respond i ⟨op, r⟩)
        (({ s with world := world }.setPhase i (.judging b (k r))).record (.called i ⟨op, r⟩))
  | finish {s i m b out} : s.handlers[i]? = some ⟨m, .judging b (.ofExcept out)⟩ →
      Step d E other s (.finish i) ((s.record (.judged i out)).finallyBlock i m b)
  | arrive {s n p c} : s.consumer.commits[n]? = some (p, c) →
      Step d E other s (.arrive n) { s with consumer := s.consumer.arrived p c }
  | settle {s i m} : s.handlers[i]? = some ⟨m, .committing⟩ →
      Step d E other s (.settle i) (s.setPhase i .settled)
  | interfere {s world} : other s.world world →
      Step d E other s (.interfere world) { s with world := world }

/-- The runs of a deployment from its construction. -/
abbrev ManagerRun (d : Deployment Res ε P V) (E : Env ω Res) (other : ω → ω → Prop)
    (group : GroupOffsets) (world : ω) :=
  Transition.Run (Step d E other) (ManagerState.init d group world)

end JudgeIt
