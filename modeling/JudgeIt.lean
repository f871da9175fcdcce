import JudgeIt.Auth.Credentials
import JudgeIt.Auth.Enumeration
import JudgeIt.Auth.Identity
import JudgeIt.Auth.Logout
import JudgeIt.Auth.Revocation
import JudgeIt.Auth.Roles
import JudgeIt.Auth.Rotation
import JudgeIt.Auth.SingleUse
import JudgeIt.Cache.SingleFlight
import JudgeIt.Execution.Failures
import JudgeIt.Execution.Isolation
import JudgeIt.Execution.Metadata
import JudgeIt.Js.Decimal
import JudgeIt.Judge.Accepted
import JudgeIt.Judge.Figures
import JudgeIt.Judge.TestCases
import JudgeIt.Submissions.Privacy
import JudgeIt.Submissions.Queued
import JudgeIt.Submissions.Redelivery
import JudgeIt.Submissions.Solved
import JudgeIt.Users.Profile
import JudgeIt.Worker.Backpressure
import JudgeIt.Worker.Boxes
import JudgeIt.Worker.Conservation
import JudgeIt.Worker.Delivery
import JudgeIt.Worker.Grants
import JudgeIt.Worker.Lag
