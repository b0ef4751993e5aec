import NexaAssist.Db.Models
import NexaAssist.ForStd.Effect
import NexaAssist.Llm.Base

/-!
# One request's session

All services of a request share one session. It opens a transaction with its first
statement and ends it by a commit. A statement that fails in an open transaction, or a
flush that fails, leaves the session inactive, and it then rejects everything until it is
rolled back. Which statements fail is up to the environment.

What else a request meets, the model, the index, the clock, is in the environment too.
-/

namespace NexaAssist

open PyJson

/-! ## The state of a request -/

/-- Why a statement fails. -/
inductive Fault
  /-- No connection to the database can be had, or it is lost. -/
  | connection
  /-- The database refuses the statement. -/
  | statement
  deriving DecidableEq, Repr

inductive SessionState
  /-- No transaction is open. -/
  | idle
  | begun
  /-- Waiting for a rollback. -/
  | inactive
  deriving DecidableEq, Repr

/-- On whose behalf a statement is issued. -/
inductive Caller
  | tool
  | handoff
  | other
  deriving DecidableEq, Repr

inductive Outcome
  | done
  /-- Failed, in this state of the session, at a flush or not. -/
  | failed (fault : Fault) (session : SessionState) (flush : Bool)
  /-- Not tried, for the session was inactive. -/
  | rejected
  deriving DecidableEq, Repr

/-- Which tickets a statement asks for. -/
inductive Reading
  | nothing
  | ticket (id : Uuid)
  | tickets (status : Option TicketStatus) (limit : Nat)
  deriving DecidableEq

/-- A statement that was issued. `asked` is how many prompts had been sent. -/
structure Issue where
  caller : Caller
  reading : Reading
  asked : Nat
  outcome : Outcome
  deriving DecidableEq

structure RequestState where
  /-- The database as the open transaction sees it. -/
  db : Database
  committed : Database
  session : SessionState
  caller : Caller
  /-- The statements issued so far. -/
  issued : List Issue
  /-- The prompts sent to the model so far. -/
  prompts : List LLMPrompt
  /-- What had been committed when each of them was sent. -/
  stored : List Database

/-- Over a database, before anything has happened. -/
def RequestState.start (db : Database) : RequestState where
  db := db
  committed := db
  session := .idle
  caller := .other
  issued := []
  prompts := []
  stored := []

/-- One error of pydantic's: where, and what. -/
structure ParamError where
  loc : List PyStr
  msg : PyStr

/-- The parameters of `list_tickets`. -/
structure ListTicketsParams where
  status : Option PyStr
  limit : { n : Nat // 1 ≤ n ∧ n ≤ 20 }

/-- The parameters of `search_knowledge_base`. -/
structure SearchKnowledgeBaseParams where
  query : { text : PyStr // text ≠ [] ∧ text.length ≤ 1000 }
  topK : { n : Nat // 1 ≤ n ∧ n ≤ 10 }

/-- What pydantic makes of a tool's parameters, by the tool. -/
structure ParamParsers where
  lookupTicket : List (PyStr × PyValue) → Except (List ParamError) Uuid
  listTickets : List (PyStr × PyValue) → Except (List ParamError) ListTicketsParams
  searchKnowledgeBase : List (PyStr × PyValue) → Except (List ParamError) SearchKnowledgeBaseParams

/-- Parameters that are never accepted. -/
def ParamParsers.refusing : ParamParsers where
  lookupTicket _ := .error []
  listTickets _ := .error []
  searchKnowledgeBase _ := .error []

/-- What Python and pydantic write for a value. -/
structure TextTables where
  isoformat : Int → PyStr
  floatRepr : Rat → PyStr
  printable : CodePoint → Bool
  word : WordTable
  /-- The JSON schema of a tool's parameters. -/
  parametersSchema : PyStr → PyStr

structure Settings where
  routingMinConfidence : Rat
  retrievalTopK : Nat
  agentMaxSteps : Nat
  agentMaxToolCalls : Nat
  /-- Whether `DATABASE_URL` is set. -/
  databaseConfigured : Bool

/-- The settings' defaults, with or without a database. -/
def Settings.default (databaseConfigured : Bool) : Settings where
  routingMinConfidence := 1 / 2
  retrievalTopK := 4
  agentMaxSteps := 6
  agentMaxToolCalls := 8
  databaseConfigured := databaseConfigured

structure Env where
  provider : LLMProvider
  /-- The chunks, with their documents' titles, nearest to a query, with their distances:
      what the embedding model and the index make of it. -/
  nearest : PyStr → Nat → List (DocumentChunk × PyStr) → List (DocumentChunk × PyStr × Rat)
  /-- `gen_random_uuid()` and `now()`, by the number of the statement. -/
  genRandomUuid : Nat → Uuid
  now : Nat → Int
  faults : Nat → Option Fault
  parse : ParamParsers
  text : TextTables
  settings : Settings

/-- An environment in which nothing fails, and all else is as simple as can be. -/
def Env.plain (provider : LLMProvider) (parse : ParamParsers) (settings : Settings) : Env where
  provider := provider
  nearest _ topK chunks := (chunks.take topK).map fun (chunk, title) => (chunk, title, 0)
  genRandomUuid n := ⟨List.replicate 31 0 ++ [Fin.ofNat 16 n], rfl⟩
  now n := n
  faults _ := none
  parse := parse
  text := {
    isoformat := fun time => lit (toString time)
    floatRepr := fun x => lit (toString x)
    printable := fun c => 0x20 ≤ c.val && c.val < 0x7f
    word := .asciiOnly
    parametersSchema := fun _ => lit "\x7b\x7d" }
  settings := settings

/-- What the code of a request raises. -/
inductive Raised
  | sqlalchemy
  | app (error : AppError)
  | llm (error : LLMError)
  | tool (message : PyStr) (retryable : Bool)

/-- Code of a request. -/
abbrev App := Effect Env Raised RequestState

namespace RequestState

def record (w : RequestState) (reading : Reading) (outcome : Outcome) : RequestState :=
  { w with
    issued := w.issued ++ [{ caller := w.caller, reading, asked := w.prompts.length, outcome }] }

/-- Send a prompt to the model. -/
def sendPrompt (w : RequestState) (prompt : LLMPrompt) : RequestState :=
  { w with prompts := w.prompts ++ [prompt], stored := w.stored ++ [w.committed] }

/-- A statement fails, and its transaction with it. Where there was none, for want of a
    connection, the session may go on, but not after a flush. -/
def fail (w : RequestState) (reading : Reading) (fault : Fault) (flush : Bool) : RequestState :=
  { w.record reading (.failed fault w.session flush) with
    db := w.committed
    session :=
      if fault = .connection ∧ w.session = .idle ∧ flush = false then .idle else .inactive }

section Fields

variable (w : RequestState) (reading : Reading) (outcome : Outcome) (fault : Fault) (flush : Bool)
  (prompt : LLMPrompt)

/-- `record` leaves the session's database. -/
@[simp]
theorem record_db : (w.record reading outcome).db = w.db := rfl

/-- `record` leaves what is committed. -/
@[simp]
theorem record_committed : (w.record reading outcome).committed = w.committed := rfl

/-- `record` leaves the prompts. -/
@[simp]
theorem record_prompts : (w.record reading outcome).prompts = w.prompts := rfl

/-- `record` leaves what is stored. -/
@[simp]
theorem record_stored : (w.record reading outcome).stored = w.stored := rfl

/-- `fail` rolls the session back. -/
@[simp]
theorem fail_db : (w.fail reading fault flush).db = w.committed := rfl

/-- `fail` leaves what is committed. -/
@[simp]
theorem fail_committed : (w.fail reading fault flush).committed = w.committed := rfl

/-- `fail` leaves the prompts. -/
@[simp]
theorem fail_prompts : (w.fail reading fault flush).prompts = w.prompts := rfl

/-- `fail` leaves what is stored. -/
@[simp]
theorem fail_stored : (w.fail reading fault flush).stored = w.stored := rfl

/-- `sendPrompt` leaves the session's database. -/
@[simp]
theorem sendPrompt_db : (w.sendPrompt prompt).db = w.db := rfl

/-- `sendPrompt` leaves what is committed. -/
@[simp]
theorem sendPrompt_committed : (w.sendPrompt prompt).committed = w.committed := rfl

end Fields

end RequestState

namespace App

variable {α : Type}

/-! ## Statements -/

/-- One statement. `run` is given its number. -/
def statement (flush : Bool) (reading : Reading) (run : Env → Nat → Database → α × Database) :
    App α := fun env w =>
  if w.session = .inactive then (.error .sqlalchemy, w.record reading .rejected)
  else
    match env.faults w.issued.length with
    | some fault => (.error .sqlalchemy, w.fail reading fault flush)
    | none =>
      let (a, db) := run env w.issued.length w.db
      (.ok a, { w.record reading .done with db, session := .begun })

/-- `session.scalars` and its kin: a query. -/
def select (reading : Reading) (query : Env → Database → α) : App α :=
  statement false reading fun env _ db => (query env db, db)

/-- `session.add(row)` and `session.flush()`. -/
def insert (row : Env → Nat → α) (store : α → Database → Database) : App α :=
  statement true .nothing fun env n db => (row env n, store (row env n) db)

/-- `session.commit()`. -/
def commit : App Unit := fun env w =>
  match w.session with
  | .inactive => (.error .sqlalchemy, w.record .nothing .rejected)
  | .idle => (.ok (), w)
  | .begun =>
    match env.faults w.issued.length with
    | some fault => (.error .sqlalchemy, w.fail .nothing fault false)
    | none => (.ok (), { w.record .nothing .done with committed := w.db, session := .idle })

/-- What is issued in `x` is issued on behalf of `caller`. -/
def onBehalfOf (caller : Caller) (x : App α) : App α := fun env w =>
  let (result, w') := x env { w with caller }
  (result, { w' with caller := w.caller })

/-- `async with factory() as session`: a session of its own, which needs a database. What
    it has not committed is lost. -/
def inNewSession (x : App α) : App α := fun env w =>
  if env.settings.databaseConfigured then
    let (result, w') := x env { w with db := w.committed, session := .idle }
    (result, { w' with db := w'.committed, session := .idle })
  else (.error (.app databaseNotConfiguredError), w)

/-! ## The model -/

/-- `complete_structured`: the model answers `prompt`. -/
def complete (answer : LLMProvider → List LLMPrompt → LLMPrompt → Except LLMError α)
    (prompt : LLMPrompt) : App α := fun env w =>
  match answer env.provider w.prompts prompt with
  | .ok a => (.ok a, w.sendPrompt prompt)
  | .error error => (.error (.llm error), w.sendPrompt prompt)

/-! ## How a statement ends -/

section Endings

variable (flush : Bool) (reading : Reading) (run : Env → Nat → Database → α × Database)
  (env : Env) {w : RequestState}

/-- In an inactive session a statement raises and is not made. -/
theorem statement_of_inactive (h : w.session = .inactive) :
    statement flush reading run env w = (.error .sqlalchemy, w.record reading .rejected) := by
  rw [statement, if_pos h]

/-- A statement that meets a fault raises. -/
theorem statement_of_fault {fault : Fault} (h : w.session ≠ .inactive)
    (hfault : env.faults w.issued.length = some fault) :
    statement flush reading run env w = (.error .sqlalchemy, w.fail reading fault flush) := by
  rw [statement, if_neg h, hfault]

/-- A statement in an active session that meets no fault is made and recorded. -/
theorem statement_of_done (h : w.session ≠ .inactive)
    (hfault : env.faults w.issued.length = none) :
    statement flush reading run env w =
      (.ok (run env w.issued.length w.db).1, { w.record reading .done with
        db := (run env w.issued.length w.db).2, session := .begun }) := by
  rw [statement, if_neg h, hfault]

/-- A statement is rejected, fails, or is done. -/
theorem statement_cases (w : RequestState) :
    (w.session = .inactive ∧
      statement flush reading run env w = (.error .sqlalchemy, w.record reading .rejected)) ∨
    (w.session ≠ .inactive ∧ ∃ fault, env.faults w.issued.length = some fault ∧
      statement flush reading run env w = (.error .sqlalchemy, w.fail reading fault flush)) ∨
    (w.session ≠ .inactive ∧ env.faults w.issued.length = none ∧
      statement flush reading run env w =
        (.ok (run env w.issued.length w.db).1, { w.record reading .done with
          db := (run env w.issued.length w.db).2, session := .begun })) := by
  by_cases h : w.session = .inactive
  · exact .inl ⟨h, statement_of_inactive flush reading run env h⟩
  · cases hfault : env.faults w.issued.length with
    | some fault => exact .inr (.inl ⟨h, fault, rfl, statement_of_fault flush reading run env h hfault⟩)
    | none => exact .inr (.inr ⟨h, rfl, statement_of_done flush reading run env h hfault⟩)

variable {reading env}

/-- What a query returns, it has read. -/
theorem select_eq_ok {query : Env → Database → α} {a : α} {w' : RequestState}
    (h : select reading query env w = (.ok a, w')) :
    a = query env w.db ∧ w' = { w.record reading .done with session := .begun } := by
  unfold select at h
  obtain ⟨-, hrun⟩ | ⟨-, fault, -, hrun⟩ | ⟨-, -, hrun⟩ :=
    statement_cases false reading (fun env _ db => (query env db, db)) env w
  · rw [hrun] at h
    exact nomatch (Prod.mk.inj h).1
  · rw [hrun] at h
    exact nomatch (Prod.mk.inj h).1
  · rw [hrun] at h
    exact ⟨(Except.ok.inj (Prod.mk.inj h).1).symm, (Prod.mk.inj h).2.symm⟩

/-- A commit is rejected, has nothing to do, fails, or is done. -/
theorem commit_cases (env : Env) (w : RequestState) :
    (w.session = .inactive ∧ commit env w = (.error .sqlalchemy, w.record .nothing .rejected)) ∨
    (w.session = .idle ∧ commit env w = (.ok (), w)) ∨
    (w.session = .begun ∧ ∃ fault, env.faults w.issued.length = some fault ∧
      commit env w = (.error .sqlalchemy, w.fail .nothing fault false)) ∨
    (w.session = .begun ∧ env.faults w.issued.length = none ∧
      commit env w = (.ok (), { w.record .nothing .done with
        committed := w.db, session := .idle })) := by
  unfold commit
  cases hsession : w.session with
  | inactive => exact .inl ⟨rfl, rfl⟩
  | idle => exact .inr (.inl ⟨rfl, rfl⟩)
  | begun =>
    cases hfault : env.faults w.issued.length with
    | some fault => exact .inr (.inr (.inl ⟨rfl, fault, rfl, rfl⟩))
    | none => exact .inr (.inr (.inr ⟨rfl, rfl, rfl⟩))

/-- The model is shown the prompt, whatever it answers. -/
theorem complete_state (answer : LLMProvider → List LLMPrompt → LLMPrompt → Except LLMError α)
    (prompt : LLMPrompt) (env : Env) (w : RequestState) :
    (complete answer prompt env w).2 = w.sendPrompt prompt := by
  unfold complete
  cases answer env.provider w.prompts prompt <;> rfl

end Endings

end App

end NexaAssist
