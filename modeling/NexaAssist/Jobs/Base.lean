import NexaAssist.Core.Errors
import NexaAssist.ForStd.PyJson

/-!
# What a background job is, and how one is built

Validation is shared by every backend: `buildJob` checks the attempt budget, the
name and the payload, in that order. A payload passes when `json.dumps` writes it
and `json.loads` gives back something equal.
-/

namespace NexaAssist.Jobs

open NexaAssist PyJson

/-! ## Jobs -/

/-- Where a job is in its life cycle. -/
inductive JobStatus
  | pending
  | running
  | succeeded
  | failed
  deriving DecidableEq, Repr

/-- A job's identifier ends up in keys, so it is text a client can send. -/
abbrev JobId := { s : PyStr // wellFormed s = true }

instance : LawfulBEq JobId := inferInstance

/-- A dictionary with `str` keys, as `payload` is once it is stored. -/
abbrev Payload := List (PyKey × PyValue)

/-- One unit of deferred work. The budget is at least one, as its field demands. -/
structure Job where
  id : JobId
  name : PyStr
  payload : Payload
  status : JobStatus
  attempts : Nat
  maxAttempts : Nat
  error : Option PyStr
  budget : 1 ≤ maxAttempts

/-- Whether the attempt budget is spent, so a retry is not owed. -/
def Job.exhausted (job : Job) : Bool := job.maxAttempts ≤ job.attempts

/-- What a queue method raises: an application error, pydantic's refusal to
    serialise, or a bare `KeyError`. -/
inductive QueueError
  | app (e : AppError)
  | encode (e : EncodeError)
  | key (id : JobId)

/-- `JobNotFoundError(details={"job": job_id})`. -/
def jobNotFound (id : JobId) : QueueError := .app (jobNotFoundError [("job", id.val)])

/-! ## Validation -/

def maxNameLength : Nat := 64

/-- `_ALLOWED_NAME`. -/
def allowedName : PyStr := .ofString "abcdefghijklmnopqrstuvwxyz0123456789_"

/-- Reject a name no backend could safely use as part of a key. -/
def validateJobName (name : PyStr) : Except AppError PyStr :=
  if name.isEmpty || !name.all (allowedName.contains ·) then
    .error (jobDefinitionError [("name", name)] (.ofString
      "Job names must be non-empty and use only lowercase letters, digits, and underscores."))
  else if maxNameLength < name.length then
    .error (jobDefinitionError [("name", name)] (.ofString
      "Job names must be at most 64 characters."))
  else .ok name

/-- `type(value).__name__`. -/
def typeName : PyValue → PyStr
  | .none => .ofString "NoneType"
  | .bool _ => .ofString "bool"
  | .int _ => .ofString "int"
  | .float _ => .ofString "float"
  | .str _ => .ofString "str"
  | .list _ => .ofString "list"
  | .tuple _ => .ofString "tuple"
  | .dict _ => .ofString "dict"
  | .object name => .ofString name

/-- `type(exc).__name__` of what `json.dumps` raises. -/
def EncodeError.typeName : EncodeError → PyStr
  | .typeError => .ofString "TypeError"
  | .serializationError => .ofString "PydanticSerializationError"

/-- Return the payload as a plain dict, proving it survives JSON first. -/
def validatePayload (payload : PyValue) : Except AppError Payload :=
  match payload with
  | .none => .ok []
  | .dict plain =>
    match dumps (.dict plain) with
    | .error e => .error (jobPayloadError [("reason", EncodeError.typeName e)])
    | .ok doc =>
      if pyEq (loads doc) (.dict plain) then .ok plain
      else .error (jobPayloadError [("reason", .ofString "not_round_trippable")]
        (.ofString "A job payload must survive a JSON round trip unchanged."))
  | other => .error (jobPayloadError [("type", typeName other)]
      (.ofString "A job payload must be a mapping."))

/-- `str(n)` of an integer. -/
def strOfInt (n : Int) : PyStr := .ofString (toString n)

/-- Validate inputs and construct a pending job. `id` is what `new_job_id` drew. -/
def buildJob (id : JobId) (name : PyStr) (payload : PyValue) (maxAttempts : Int) :
    Except AppError Job :=
  if h : maxAttempts < 1 then
    .error (jobDefinitionError [("max_attempts", strOfInt maxAttempts)]
      (.ofString "max_attempts must be at least 1."))
  else
    match validateJobName name with
    | .error e => .error e
    | .ok name =>
      match validatePayload payload with
      | .error e => .error e
      | .ok payload => .ok
        { id, name, payload, status := .pending, attempts := 0, error := none
          maxAttempts := maxAttempts.toNat, budget := by omega }

/-- A built job is pending, untried and holds the payload that was checked. -/
theorem buildJob_ok {id : JobId} {name : PyStr} {payload : PyValue} {maxAttempts : Int}
    {job : Job} (h : buildJob id name payload maxAttempts = .ok job) :
    job.id = id ∧ job.status = .pending ∧ job.attempts = 0 ∧
      validatePayload payload = .ok job.payload := by
  unfold buildJob at h
  split at h
  · exact nomatch h
  · split at h
    · exact nomatch h
    · split at h
      · exact nomatch h
      · rename_i hpayload
        simp only [Except.ok.injEq] at h
        subst h
        exact ⟨rfl, rfl, rfl, hpayload⟩

/-! ## State transitions -/

/-- `model_copy(update={"status": RUNNING, "attempts": attempts + 1})`. -/
def Job.running (job : Job) : Job :=
  { job with status := .running, attempts := job.attempts + 1 }

/-- `model_copy(update={"status": SUCCEEDED, "error": None})`. -/
def Job.succeeded (job : Job) : Job := { job with status := .succeeded, error := none }

/-- `model_copy(update={"status": FAILED, "error": error})`. -/
def Job.dead (job : Job) (error : PyStr) : Job :=
  { job with status := .failed, error := some error }

/-- `model_copy(update={"status": PENDING, "error": error})`. -/
def Job.retry (job : Job) (error : PyStr) : Job :=
  { job with status := .pending, error := some error }

/-- A job keeps its id while it runs. -/
@[simp] theorem Job.running_id (job : Job) : job.running.id = job.id := rfl

/-- A job keeps its id when it has succeeded. -/
@[simp] theorem Job.succeeded_id (job : Job) : job.succeeded.id = job.id := rfl

/-- A job keeps its id when it is dead. -/
@[simp] theorem Job.dead_id (job : Job) (error : PyStr) : (job.dead error).id = job.id := rfl

/-- A job keeps its id when it is to be tried again. -/
@[simp] theorem Job.retry_id (job : Job) (error : PyStr) : (job.retry error).id = job.id := rfl

end NexaAssist.Jobs
