import NexaAssist.Core.Boundary
import NexaAssist.Jobs.Protocol
import NexaAssist.Jobs.Worker

/-!
# Handlers that may do anything

The worker over handlers of which nothing is known, and over either queue. Where a handler
validates as pydantic does, it is the worker of `Jobs/Worker`.
-/

namespace NexaAssist.Jobs

open NexaAssist PyJson

/-- A handler, as the worker meets it. -/
structure TimedHandler where
  call : Payload → Validation ValidationIssue (TimedCall Unit)

/-- A worker. `timeout` is `f"{timeout:g}"`. -/
structure TimedWorker where
  registry : PyStr → Option TimedHandler
  timeout : PyStr
  printable : CodePoint → Bool

namespace TimedWorker

variable (w : TimedWorker)

/-- `_run`, up to what it tells the queue. -/
def run : TimedCall Unit → Settlement
  | .returned _ => .complete
  | .expired | .raised .timeoutError _ =>
    .fail (.ofString "The job did not finish within " ++ w.timeout ++ .ofString "s.") true
  | .raised (.declared message retryable) _ => .fail message retryable
  | .raised (.other _) _ => .fail unexpectedError true

/-- `_dispatch`, up to what it tells the queue. An exception that no stage catches goes
    through. -/
def dispatch (job : Job) : Except PyException Settlement :=
  match w.registry job.name with
  | none => .ok (.fail (.ofString "No handler is registered for " ++ reprStr w.printable job.name ++
      .ofString ".") false)
  | some handler =>
    match handler.call job.payload with
    | .invalid issues => .ok (.fail (describeValidation issues) false)
    | .raised exception => .error exception
    | .accepted call => .ok (w.run call)

end TimedWorker

/-- How `run_once` ends. -/
inductive RunOnce
  /-- It returns `None`. -/
  | idle
  | ran (run : JobRun)
  | escaped (exception : PyException)
  /-- The queue raised. -/
  | queue (error : QueueError)

/-- What passing a job back asks of the queue. -/
def Settlement.queueCall (job : Job) : Settlement → QueueCall
  | .complete => .complete job
  | .fail error retryable => .fail job error retryable

/-- `run_once`, over any queue. While the handler is awaited the queue is called by others. -/
def TimedWorker.runOnce {σ : Type} (w : TimedWorker) (O : Object σ QueueCall QueueAnswer)
    (others : List QueueCall) (s : σ) : RunOnce × σ :=
  match O.call s .dequeue with
  | (.taken (.ok none), s) => (.idle, s)
  | (.taken (.ok (some job)), s) =>
    let s := O.stateFrom s others
    match w.dispatch job with
    | .error exception => (.escaped exception, s)
    | .ok settlement =>
      match O.call s (settlement.queueCall job) with
      | (.job (.ok recorded), s) => (.ran (settlement.record job recorded), s)
      | (.job (.error e), s) => (.queue e, s)
      -- No other answer is one to that call.
      | (_, s) => (.idle, s)
  | (.taken (.error e), s) => (.queue e, s)
  | (_, s) => (.idle, s)

/-! ## The worker of a fleet -/

/-- How a run ends, with its exception. -/
def RunOutcome.timed : RunOutcome → TimedCall Unit
  | .finished => .returned ()
  | .timedOut => .expired
  | .jobError message retryable => .raised (.declared message retryable) false
  | .raised => .raised (.other "Exception") false

def JobHandler.timed (handler : JobHandler) : TimedHandler where
  call payload :=
    match handler.modelValidate payload with
    | .error issues => .invalid issues
    | .ok params => .accepted (handler.run params).timed

def JobWorker.timed (w : JobWorker) : TimedWorker where
  registry name := (w.registry name).map JobHandler.timed
  timeout := w.timeout
  printable := w.printable

/-- `timed` makes of a worker of a fleet one that dispatches as it does. -/
theorem JobWorker.dispatch_timed (w : JobWorker) (job : Job) :
    w.timed.dispatch job = .ok (w.dispatch job) := by
  simp only [TimedWorker.dispatch, JobWorker.timed, JobWorker.dispatch]
  cases w.registry job.name with
  | none => rfl
  | some handler =>
    simp only [Option.map_some, JobHandler.timed]
    cases handler.modelValidate job.payload with
    | error issues => rfl
    | ok params =>
      simp only [JobWorker.run]
      cases handler.run params <;> rfl

end NexaAssist.Jobs
