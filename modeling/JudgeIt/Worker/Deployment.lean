import JudgeIt.Judge.Submission
import JudgeIt.Worker.Manager

/-!
# The worker as deployed

The manager with the judge of this repository injected: its messages carry the JSON of a queued
submission, and what it awaits are the calls of `judgeSubmission`.
-/

namespace JudgeIt

open Async

/-- The manager with `JudgeService` injected. -/
def judgeDeployment (workers : ℕ) (assigned : List ℕ) :
    Deployment Call.Res JsString (Option SubmissionQueuedEvent) (List JsString) where
  workers := workers
  assigned := assigned
  judgeSubmission := judgeSubmission

/-- The states of the deployed manager. -/
abbrev WorkerState (ω : Type) :=
  ManagerState Call.Res JsString (Option SubmissionQueuedEvent) (List JsString) ω

/-- The actions of the deployed manager. -/
abbrev WorkerAction (ω : Type) := Action Call.Res JsString (Option SubmissionQueuedEvent) ω

/-- A group without a committed position, reading from the start. -/
def GroupOffsets.fromStart : GroupOffsets := ⟨fun _ ↦ none, fun _ ↦ 0, by simp⟩

/-- A message that is no JSON. -/
def garbled (partition : ℕ) (offset : ℤ) : Message JsString (Option SubmissionQueuedEvent) :=
  ⟨partition, offset, some (.error "SyntaxError: Unexpected end of JSON input")⟩

/-- The environment that answers anything. -/
def anyAnswer : Env Unit Call.Res := fun _ _ _ _ ↦ True

theorem steps_anyAnswer (tr : List (Event Call.Res)) : anyAnswer.Steps () tr () := by
  induction tr with
  | nil => rfl
  | cons x tr ih => exact ⟨(), trivial, ih⟩

end JudgeIt
