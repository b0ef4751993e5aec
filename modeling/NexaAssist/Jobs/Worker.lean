import NexaAssist.ForStd.PyRepr
import NexaAssist.Jobs.RedisQueue

/-!
# Running queued work

A worker takes a job, looks its handler up, validates the payload, runs the handler,
and records the outcome with `complete` or `fail`. What a handler does to the job is
its `Settlement`; no outcome of a handler escapes as anything else.
-/

namespace NexaAssist.Jobs

open NexaAssist PyJson

/-- One error of `ValidationError.errors()`. -/
structure ValidationIssue where
  loc : List PyStr
  msg : PyStr

/-- How `handler.run(params)` ends under its timeout. -/
inductive RunOutcome
  | finished
  | timedOut
  | jobError (message : PyStr) (retryable : Bool)
  | raised

/-- A handler: its payload model, and what running it comes to. -/
structure JobHandler where
  modelValidate : Payload → Except (List ValidationIssue) Payload
  run : Payload → RunOutcome

/-- A worker. `timeout` is `f"{timeout:g}"`. -/
structure JobWorker where
  registry : PyStr → Option JobHandler
  timeout : PyStr
  printable : CodePoint → Bool

/-- How the holder of a job passes it back to the queue. -/
inductive Settlement
  | complete
  | fail (error : PyStr) (retryable : Bool)

/-- `UNEXPECTED_ERROR`. -/
def unexpectedError : PyStr := .ofString "The job failed unexpectedly."

/-- `sep.join(parts)`. -/
def join (sep : PyStr) (parts : List PyStr) : PyStr := (parts.intersperse sep).flatten

/-- `_describe_validation`. -/
def describeValidation (issues : List ValidationIssue) : PyStr :=
  let parts := issues.map fun issue =>
    let path := join (.ofString ".") issue.loc
    (if path.isEmpty then .ofString "payload" else path) ++ .ofString ": " ++ issue.msg
  .ofString "Invalid payload — " ++ join (.ofString "; ") parts

namespace JobWorker

/-- `_run`, up to what it tells the queue. -/
def run (w : JobWorker) (handler : JobHandler) (params : Payload) : Settlement :=
  match handler.run params with
  | .finished => .complete
  | .timedOut => .fail (.ofString "The job did not finish within " ++ w.timeout ++ .ofString "s.") true
  | .jobError message retryable => .fail message retryable
  | .raised => .fail unexpectedError true

/-- `_dispatch`, up to what it tells the queue. -/
def dispatch (w : JobWorker) (job : Job) : Settlement :=
  match w.registry job.name with
  -- Registering the handler is a deploy, not a retry.
  | none => .fail (.ofString "No handler is registered for " ++ reprStr w.printable job.name ++
      .ofString ".") false
  | some handler =>
    match handler.modelValidate job.payload with
    | .error issues => .fail (describeValidation issues) false
    | .ok params => w.run handler params

end JobWorker

/-- How one attempt ended, from the worker's point of view. -/
inductive JobOutcome
  | succeeded
  | retrying
  | deadLettered
  deriving DecidableEq, Repr

/-- The record of one attempt. -/
structure JobRun where
  jobId : JobId
  name : PyStr
  outcome : JobOutcome
  attempts : Nat
  error : Option PyStr

section

variable {W : Type} (C : JobCodec W)

/-- Pass a job back to the queue. -/
def Settlement.tell (job : Job) : Settlement → Prog W Job
  | .complete => RedisJobQueue.complete C job
  | .fail error retryable => RedisJobQueue.fail C job error retryable

/-- The record of a job that was passed back. -/
def Settlement.record (job recorded : Job) : Settlement → JobRun
  | .complete =>
    { jobId := job.id, name := job.name, outcome := .succeeded, attempts := recorded.attempts
      error := none }
  | .fail error _ =>
    { jobId := job.id, name := job.name, attempts := recorded.attempts, error := some error
      outcome := if recorded.status = .failed then .deadLettered else .retrying }

/-- `run_once`. -/
def JobWorker.runOnce (w : JobWorker) : Prog W (Option JobRun) := do
  match ← RedisJobQueue.dequeue C with
  | none => return none
  | some job =>
    let recorded ← (w.dispatch job).tell C job
    return some ((w.dispatch job).record job recorded)

end

end NexaAssist.Jobs
