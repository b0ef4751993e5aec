import NexaAssist.ForStd.Machine
import NexaAssist.Jobs.Boundary
import NexaAssist.Services.Storing

/-!
# Jobs that write

The two handlers, over services that share one session, and the attempts a worker makes with
them. A handler neither commits nor rolls back.
-/

namespace NexaAssist.Storage

open NexaAssist PyJson Jobs

/-! ## Payloads -/

/-- A `str` with a `min_length` and perhaps a `max_length`. -/
abbrev StrField (minLength : Nat) (maxLength : Option Nat) :=
  { text : PyStr // wellFormed text = true ∧ minLength ≤ text.length ∧
    maxLength.all (text.length ≤ ·) = true }

/-- `n` characters, in words. -/
def characters (n : Nat) : PyStr :=
  if n = 1 then lit "1 character" else lit (toString n) ++ lit " characters"

/-- A required field. -/
def strField (payload : Payload) (name : String) (minLength : Nat) (maxLength : Option Nat) :
    Except ValidationIssue (StrField minLength maxLength) :=
  let issue (msg : PyStr) : ValidationIssue := { loc := [lit name], msg }
  match dictLookup payload (.str (lit name)) with
  | none => .error (issue (lit "Field required"))
  | some (.str text) =>
    if hwf : wellFormed text = true then
      if hmin : minLength ≤ text.length then
        if hmax : maxLength.all (text.length ≤ ·) = true then .ok ⟨text, hwf, hmin, hmax⟩
        else .error (issue (lit "String should have at most " ++ characters (maxLength.getD 0)))
      else .error (issue (lit "String should have at least " ++ characters minLength))
    else .error (issue
      (lit "Input should be a valid string, unable to parse raw data as a unicode string"))
  | some _ => .error (issue (lit "Input should be a valid string"))

/-- What is wrong with a field. -/
def issues {α : Type} : Except ValidationIssue α → List ValidationIssue
  | .ok _ => []
  | .error issue => [issue]

structure IngestDocumentPayload where
  title : StrField 1 (some 500)
  content : StrField 1 none

def IngestDocumentPayload.modelValidate (payload : Payload) :
    Except (List ValidationIssue) IngestDocumentPayload :=
  match strField payload "title" 1 (some 500), strField payload "content" 1 none with
  | .ok title, .ok content => .ok { title, content }
  | title, content => .error (issues title ++ issues content)

structure CreateTicketPayload where
  customerEmail : StrField 3 (some 320)
  subject : StrField 1 (some 500)
  body : StrField 1 none

def CreateTicketPayload.modelValidate (payload : Payload) :
    Except (List ValidationIssue) CreateTicketPayload :=
  match strField payload "customer_email" 3 (some 320), strField payload "subject" 1 (some 500),
    strField payload "body" 1 none with
  | .ok customerEmail, .ok subject, .ok body => .ok { customerEmail, subject, body }
  | customerEmail, subject, body => .error (issues customerEmail ++ issues subject ++ issues body)

/-! ## Handlers -/

/-- What an attempt meets: what the embedder makes of a batch, and what befalls its calls on the
    session, by their number. -/
structure Conditions where
  embed : List PyStr → Except PyException (List Embedding)
  failures : Nat → Option Failure

/-- A handler: its name, its payload model, what it asks of a service, and the message of its
    `JobError`. -/
structure Handler where
  name : PyStr
  Params : Type
  modelValidate : Payload → Except (List ValidationIssue) Params
  work : Conditions → Params → Work Unit
  refusal : PyStr

def ingestDocumentHandler : Handler where
  name := lit "ingest_document"
  Params := IngestDocumentPayload
  modelValidate := IngestDocumentPayload.modelValidate
  work x params := do
    let _ ← DocumentService.ingest x.embed params.title.val params.content.val
  refusal := lit "The document could not be stored."

def createTicketHandler (table : LowerTable) : Handler where
  name := lit "create_ticket"
  Params := CreateTicketPayload
  modelValidate := CreateTicketPayload.modelValidate
  work _ params := do
    let _ ← TicketService.create table params.customerEmail.val params.subject.val params.body.val
      none
  refusal := lit "The ticket could not be created."

/-- What a worker runs on. `timeout` is `f"{timeout:g}"`. -/
structure Site where
  postgres : Postgres
  table : LowerTable
  timeout : PyStr
  printable : CodePoint → Bool

/-- How `run` ends: a `SQLAlchemyError` has become a `JobError`. -/
def timedCall (refusal : PyStr) : Except StorageError Unit → TimedCall Unit
  | .ok () => .returned ()
  | .error (.sqlalchemy _) => .raised (.declared refusal true) false
  | .error .valueError => .raised (.other "ValueError") false
  | .error (.embedder exception) => .raised exception false
  | .error .cancelled => .expired

/-- One call on the session, the `n`-th of an attempt. -/
def answer (pg : Postgres) (failures : Nat → Option Failure) (c : Call) (s : World × Nat) :
    Except StorageError c.Reply × World × Nat :=
  ((exec pg (failures s.2) s.1 c).1, (exec pg (failures s.2) s.1 c).2, s.2 + 1)

section Answer

variable {pg : Postgres} {failures : Nat → Option Failure} {c : Call} {w t : World} {n : Nat}
  {α : Type} {f : c.Reply → Work α}

/-- A statement that succeeds hands its reply to what follows. -/
theorem run_ask_ok {reply : c.Reply} (h : exec pg (failures n) w c = (.ok reply, t)) :
    (ask c >>= f).run (answer pg failures) (w, n) =
      (f reply).run (answer pg failures) (t, n + 1) := by
  simp only [ask, Program.perform_bind, Program.run_call, answer, h, Program.ret_bind]

/-- A statement that fails ends the program. -/
theorem run_ask_error {e : StorageError} (h : exec pg (failures n) w c = (.error e, t)) :
    (ask c >>= f).run (answer pg failures) (w, n) = (.error e, t, n + 1) := by
  simp only [ask, Program.perform_bind, Program.run_call, answer, h, Program.ret_bind,
    Program.run_ret]

end Answer

namespace Site

variable (site : Site)

/-- `build_handler_registry`. -/
def registry (name : PyStr) : Option Handler :=
  [ingestDocumentHandler, createTicketHandler site.table].find? fun handler => handler.name = name

/-- Do some work on a session. -/
def run {α : Type} (x : Conditions) (work : Work α) (w : World) :
    Except StorageError α × World × Nat :=
  work.run (answer site.postgres x.failures) (w, 0)

/-- A handler that discards what its service returns leaves what the service leaves. -/
theorem run_discard {α : Type} (x : Conditions) (work : Work α) (w : World) :
    site.run x (work >>= fun _ => pure ()) w =
      ((site.run x work w).1.map fun _ => (), (site.run x work w).2) := by
  unfold run
  show (Program.andThen _ _).run _ _ = _
  rw [Program.run_andThen]
  cases (work.run (answer site.postgres x.failures) (w, 0)).1 <;> rfl

/-- The worker, as its session is. -/
def worker (x : Conditions) (w : World) : TimedWorker where
  registry name := (site.registry name).map fun handler =>
    { call := fun payload =>
        match handler.modelValidate payload with
        | .error issues => .invalid issues
        | .ok params =>
          .accepted (timedCall handler.refusal (site.run x (handler.work x params) w).1) }
  timeout := site.timeout
  printable := site.printable

/-- What an attempt at a job does with the session. A job that is not accepted does nothing. -/
def work (x : Conditions) (job : Job) : Work Unit :=
  match site.registry job.name with
  | none => pure ()
  | some handler =>
    match handler.modelValidate job.payload with
    | .error _ => pure ()
    | .ok params => handler.work x params

/-- What is left by an attempt at a job. -/
def after (x : Conditions) (job : Job) (w : World) : World := (site.run x (site.work x job) w).2.1

end Site

/-- Attempts one after another, at any jobs and under any conditions. Nobody rolls back. -/
def attempts (site : Site) (tables : Tables) (drawn : Nat) : Machine World (Job × Conditions) where
  init := { tables, drawn, session := .fresh }
  step w attempt := some (site.after attempt.2 attempt.1 w)

end NexaAssist.Storage
