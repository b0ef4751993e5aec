import NexaAssist.ForStd.PyStr

/-!
# What called code may do

A tool or a job's handler is code of which nothing is known. Its parameter model may accept,
refuse or break, and its `run` may return, raise or take too long.
-/

namespace NexaAssist

open PyJson

/-- An exception, by the classes that the boundaries tell apart. -/
inductive PyException
  | timeoutError
  /-- `ToolError` for a tool, `JobError` for a handler. -/
  | declared (message : PyStr) (retryable : Bool)
  /-- Any other, by the name of its class. -/
  | other (name : String)
  deriving DecidableEq, Repr

/-- How `model_validate` ends. A validator may raise what is no `ValidationError`. -/
inductive Validation (ι α : Type)
  | accepted (params : α)
  | invalid (issues : List ι)
  | raised (exception : PyException)

/-- How a call under `asyncio.timeout` ends. -/
inductive TimedCall (α : Type)
  | returned (output : α)
  /-- It raises, after it was cancelled for being late or before. -/
  | raised (exception : PyException) (late : Bool)
  /-- The deadline passes, and the cancellation goes through it. -/
  | expired

/-- The deadline passed before the call ended. -/
def TimedCall.elapsed {α : Type} : TimedCall α → Bool
  | .returned _ => false
  | .raised _ late => late
  | .expired => true

end NexaAssist
