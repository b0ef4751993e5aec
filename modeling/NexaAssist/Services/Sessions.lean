import Mathlib.Data.Fintype.Basic
import NexaAssist.ForStd.Machine
import NexaAssist.Services.Storing

/-!
# Calls on several sessions

Sessions side by side on one database, under READ COMMITTED: a session sees what is committed
and what it has staged itself. Each makes one call after another, statement by statement, and
others go on in between. An insert for whose address another session has a row staged waits for
that transaction to end.
-/

namespace NexaAssist.Storage

open NexaAssist PyJson

/-- A call that leads to a customer. -/
inductive Request
  | create (customerEmail subject body : PyStr) (ownerSubject : Option PyStr)
  | getOrCreate (email : PyStr)

namespace Request

abbrev Reply : Request → Type
  | .create .. => Ticket
  | .getOrCreate _ => Customer

/-- The customer that a reply is about. -/
def customerId : (request : Request) → request.Reply → RowId
  | .create .., ticket => ticket.customerId
  | .getOrCreate _, customer => customer.id

/-- The normal form of its address. -/
def address (table : LowerTable) : Request → PyStr
  | .create customerEmail .. => TicketService.normaliseEmail table customerEmail
  | .getOrCreate email => CustomerService.normaliseEmail table email

def work (table : LowerTable) : (request : Request) → Work request.Reply
  | .create customerEmail subject body ownerSubject =>
    TicketService.create table customerEmail subject body ownerSubject
  | .getOrCreate email => CustomerService.getOrCreate table email

end Request

/-! ## What is noted of a call -/

/-- The ids of its customers and tickets. -/
def Tables.ids (tables : Tables) : List RowId :=
  tables.customers.map Customer.id ++ tables.tickets.map Ticket.id

/-- What a call has done so far. -/
structure History where
  /-- The customers and the tickets that it inserted. -/
  customers : List RowId := []
  tickets : List RowId := []
  committed : Bool := false
  /-- No statement of it failed for want of a connection or of the server's will. -/
  healthy : Bool
  /-- Its insert was refused for a customer of the same address. -/
  lost : Bool := false

/-- Every row that it inserted. -/
def History.ids (history : History) : List RowId := history.customers ++ history.tickets

/-- With a statement, what came of it, and what it found. -/
def History.note (history : History) (failure : Option Failure) (w : World) (c : Call)
    (answer : Except StorageError c.Reply) : History :=
  let history := { history with healthy := history.healthy && failure.isNone }
  match c, answer with
  | .insertCustomer _, .ok customer =>
    { history with customers := history.customers ++ [customer.id] }
  | .insertCustomer email, .error (.sqlalchemy true) =>
    { history with lost :=
        history.lost || w.seen.customers.any fun customer => customer.email = email }
  | .flushTicket _, .ok ticket => { history with tickets := history.tickets ++ [ticket.id] }
  | .commitChunks _, .ok _ | .commit, .ok _ => { history with committed := true }
  | _, _ => history

/-- What a call has to do with. -/
structure View where
  world : World
  history : History

/-- One statement of a call. -/
def View.exec (pg : Postgres) (failure : Option Failure) (c : Call) (v : View) :
    Except StorageError c.Reply × View :=
  let (answer, world) := Storage.exec pg failure v.world c
  (answer, { world, history := v.history.note failure v.world c answer })

/-! ## Sessions side by side -/

/-- A call that is not over, and what is left of it. -/
structure Pending where
  request : Request
  work : Work request.Reply
  history : History

/-- A call that is over. -/
structure Finished where
  request : Request
  result : Except StorageError request.Reply
  history : History

/-- A session, and the call it is used for. -/
structure Desk where
  session : Session
  call : Option Pending

/-- A database that its constraints hold of. -/
structure Database where
  tables : Tables
  drawn : Nat
  unique : (tables.customers.map Customer.email).Nodup
  old : ∀ id ∈ tables.ids, id < drawn

/-- `k` sessions and their database. -/
structure Sessions (k : Nat) where
  tables : Tables
  drawn : Nat
  desks : Fin k → Desk
  finished : List Finished

/-- What can happen next at a session. -/
inductive Event (k : Nat)
  | start (n : Fin k) (request : Request)
  /-- The next statement of its call, which may fail, or the end of the call. -/
  | advance (n : Fin k) (failure : Option Failure)
  | rollback (n : Fin k)

namespace Sessions

variable {k : Nat}

/-- What one session sees of it all. -/
def world (s : Sessions k) (n : Fin k) : World where
  tables := s.tables
  drawn := s.drawn
  session := (s.desks n).session

def view (s : Sessions k) (n : Fin k) (history : History) : View := { world := s.world n, history }

/-- The rows that a session has staged. -/
abbrev staged (s : Sessions k) (n : Fin k) : Tables := (s.desks n).session.staged

/-- With a session changed, and what it changed. -/
def put (s : Sessions k) (n : Fin k) (w : World) (call : Option Pending) : Sessions k :=
  { s with
    tables := w.tables
    drawn := w.drawn
    desks := Function.update s.desks n { session := w.session, call } }

section Put

variable (s : Sessions k) {m n : Fin k} (w : World) (call : Option Pending)

/-- `put` leaves the desk with its session and its call. -/
@[simp]
theorem put_self : (s.put n w call).desks n = { session := w.session, call } :=
  Function.update_self ..

/-- `put` leaves the other desks. -/
@[simp]
theorem put_ne (h : m ≠ n) : (s.put n w call).desks m = s.desks m := Function.update_of_ne h ..

/-- What the desk has staged is that of the session. -/
theorem put_staged_self : (s.put n w call).staged n = w.session.staged := by
  rw [staged, put_self]

/-- What the others have staged is as before. -/
theorem put_staged_ne (h : m ≠ n) : (s.put n w call).staged m = s.staged m := by
  rw [staged, put_ne s w call h]

/-- The desk sees the world it has put. -/
theorem put_world_self : (s.put n w call).world n = w := by
  unfold world
  rw [put_self]
  rfl

/-- `put` shows the other desks what is committed, with what they have staged. -/
theorem put_seen_ne (h : m ≠ n) : ((s.put n w call).world m).seen = w.tables ++ s.staged m := by
  unfold world World.seen
  rw [put_ne s w call h]
  rfl

/-- What is committed is that of the world. -/
@[simp]
theorem put_tables : (s.put n w call).tables = w.tables := rfl

/-- `put` takes over the ids that are drawn. -/
@[simp]
theorem put_drawn : (s.put n w call).drawn = w.drawn := rfl

/-- `put` finishes no call. -/
@[simp]
theorem put_finished : (s.put n w call).finished = s.finished := rfl

end Put

/-- It has to wait for another session to make a statement. -/
def Blocked (s : Sessions k) (n : Fin k) : Call → Prop
  | .insertCustomer email => ∃ m, m ≠ n ∧
      ∃ row ∈ (s.staged m).customers, varchar 320 email = some row.email
  | _ => False

instance decidableBlocked (s : Sessions k) (n : Fin k) (c : Call) : Decidable (s.Blocked n c) :=
  match c with
  | .insertCustomer email => inferInstanceAs (Decidable (∃ m, m ≠ n ∧
      ∃ row ∈ (s.staged m).customers, varchar 320 email = some row.email))
  | .findCustomer _ | .flushTicket _ | .flushDocument _ _ | .commitChunks _ | .commit =>
    inferInstanceAs (Decidable False)

/-- A call that nothing was done for yet. -/
def opened (table : LowerTable) (session : Session) (request : Request) : Pending where
  request := request
  work := request.work table
  history := { healthy := session.state ≠ .inactive }

def start (table : LowerTable) (s : Sessions k) (n : Fin k) (request : Request) :
    Option (Sessions k) :=
  match (s.desks n).call with
  | some _ => none
  | none => some (s.put n (s.world n) (some (opened table (s.desks n).session request)))

def advance (pg : Postgres) (s : Sessions k) (n : Fin k) (failure : Option Failure) :
    Option (Sessions k) :=
  match (s.desks n).call with
  | none => none
  | some ⟨request, .ret result, history⟩ =>
    some { s.put n (s.world n) none with
      finished := s.finished ++ [{ request, result, history }] }
  | some ⟨request, .call c next, history⟩ =>
    if failure = none ∧ s.Blocked n c then none
    else
      let (answer, v) := (s.view n history).exec pg failure c
      some (s.put n v.world (some { request, work := next answer, history := v.history }))

/-- Between two calls. -/
def rollback (s : Sessions k) (n : Fin k) : Option (Sessions k) :=
  match (s.desks n).call with
  | some _ => none
  | none => some (s.put n { s.world n with session := .fresh } none)

end Sessions

/-- Sessions on a database, nothing asked of any of them. -/
def sessions (pg : Postgres) (table : LowerTable) (database : Database) (k : Nat) :
    Machine (Sessions k) (Event k) where
  init :=
    { tables := database.tables
      drawn := database.drawn
      desks := fun _ => { session := .fresh, call := none }
      finished := [] }
  step s
    | .start n request => s.start table n request
    | .advance n failure => s.advance pg n failure
    | .rollback n => s.rollback n

/-! ## What a step does -/

namespace Sessions

variable {k : Nat} {pg : Postgres} {table : LowerTable} {database : Database}

/-- A step of one session: a call starts, ends or makes a statement, or what is between calls
    is rolled back. -/
inductive Stepped (pg : Postgres) (table : LowerTable) (s : Sessions k) (n : Fin k) :
    Sessions k → Prop
  | started (request : Request) (hcall : (s.desks n).call = none) :
    Stepped pg table s n (s.put n (s.world n) (some (opened table (s.desks n).session request)))
  | ended (request : Request) (result : Except StorageError request.Reply) (history : History)
    (hcall : (s.desks n).call = some ⟨request, .ret result, history⟩) :
    Stepped pg table s n { s.put n (s.world n) none with
      finished := s.finished ++ [{ request, result, history }] }
  | asked (failure : Option Failure) (request : Request) (c : Call)
    (next : Except StorageError c.Reply → Work request.Reply) (history : History)
    (hcall : (s.desks n).call = some ⟨request, .call c next, history⟩)
    (hfree : ¬(failure = none ∧ s.Blocked n c)) :
    Stepped pg table s n (s.put n ((s.view n history).exec pg failure c).2.world
      (some ⟨request, next ((s.view n history).exec pg failure c).1,
        ((s.view n history).exec pg failure c).2.history⟩))
  | rolledBack (hcall : (s.desks n).call = none) :
    Stepped pg table s n (s.put n { s.world n with session := .fresh } none)

/-- Every step is one of a desk. -/
theorem step_cases {s s' : Sessions k} {event : Event k}
    (h : (sessions pg table database k).step s event = some s') :
    ∃ n, Stepped pg table s n s' := by
  -- Each event is of one desk: a call starts, a statement is answered, or a session is rolled back
  cases event with
  | start n request =>
    simp only [sessions, start] at h
    split at h
    · exact nomatch h
    · rename_i hcall
      obtain rfl := Option.some.inj h
      exact ⟨n, .started request hcall⟩
  | advance n failure =>
    simp only [sessions, advance] at h
    split at h
    · exact nomatch h
    · rename_i request result history hcall
      obtain rfl := Option.some.inj h
      exact ⟨n, .ended request result history hcall⟩
    · rename_i request c next history hcall
      split at h
      · exact nomatch h
      · rename_i hfree
        obtain rfl := Option.some.inj h
        exact ⟨n, .asked failure request c next history hcall hfree⟩
  | rollback n =>
    simp only [sessions, rollback] at h
    split at h
    · exact nomatch h
    · rename_i hcall
      obtain rfl := Option.some.inj h
      exact ⟨n, .rolledBack hcall⟩

end Sessions

end NexaAssist.Storage
