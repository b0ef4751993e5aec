import NexaAssist.Core.Boundary
import NexaAssist.Db.Appends

/-!
# Writing documents, customers and tickets

What the services that insert rows ask of a session, and what PostgreSQL makes of it. What was
added goes out with the flush after it. Rows that were flushed are staged in the open
transaction; a commit makes them permanent, and one that fails makes nothing permanent. A
statement that fails in an open transaction, and any flush that fails, loses what is staged and
leaves the session inactive. An insert inside a savepoint that the server refuses does not.

Ids are counted in the order in which they are drawn: none is drawn twice.
-/

namespace NexaAssist.Storage

open NexaAssist PyJson

/-! ## Rows -/

abbrev RowId := Nat

structure Customer where
  id : RowId
  email : PyStr
  deriving DecidableEq

/-- A ticket as it is inserted. -/
structure NewTicket where
  customerId : RowId
  ownerSubject : Option PyStr
  subject : PyStr
  body : PyStr
  deriving DecidableEq

structure Ticket extends NewTicket where
  id : RowId
  deriving DecidableEq

structure Document where
  id : RowId
  title : PyStr
  content : PyStr
  deriving DecidableEq

abbrev Embedding := List PyFloat

structure Chunk where
  documentId : RowId
  ordinal : Nat
  content : PyStr
  embedding : Embedding
  deriving DecidableEq

structure Tables where
  customers : List Customer := []
  tickets : List Ticket := []
  documents : List Document := []
  chunks : List Chunk := []
  deriving DecidableEq

/-- The rows of both. -/
def Tables.append (a b : Tables) : Tables where
  customers := a.customers ++ b.customers
  tickets := a.tickets ++ b.tickets
  documents := a.documents ++ b.documents
  chunks := a.chunks ++ b.chunks

instance : Append Tables := ⟨Tables.append⟩

/-- `++` puts customers behind customers. -/
@[simp]
theorem Tables.append_customers (a b : Tables) :
    (a ++ b).customers = a.customers ++ b.customers := rfl

/-- `++` on tables puts tickets behind tickets. -/
@[simp]
theorem Tables.append_tickets (a b : Tables) : (a ++ b).tickets = a.tickets ++ b.tickets := rfl

/-- `++` on tables puts documents behind documents. -/
@[simp]
theorem Tables.append_documents (a b : Tables) :
    (a ++ b).documents = a.documents ++ b.documents := rfl

/-- `++` on tables puts chunks behind chunks. -/
@[simp]
theorem Tables.append_chunks (a b : Tables) : (a ++ b).chunks = a.chunks ++ b.chunks := rfl

/-! ## Constraints -/

def EMBEDDING_DIMENSIONS : Nat := 384

/-- What of PostgreSQL the constraints rest on: `lower`, which follows the locale, and which
    lists the type `vector(384)` takes. -/
structure Postgres where
  lower : PyStr → PyStr
  vector : Embedding → Bool
  zeros : vector (List.replicate EMBEDDING_DIMENSIONS (.finite 0)) = true

/-- A text as UTF-8 without U+0000, which no column can hold. -/
def storable (text : PyStr) : Bool := wellFormed text && text.all (· ≠ 0)

/-- `length(btrim(text)) > 0`. -/
abbrev notBlank (text : PyStr) : Bool := contentNotBlank text

/-- What a column `varchar(n)` holds of a text. Only spaces may be too many. -/
def varchar (n : Nat) (text : PyStr) : Option PyStr :=
  if text.length ≤ n then some text
  else if (text.drop n).all (· = 0x20) then some (text.take n)
  else none

/-- The length and the check of a column `varchar(n)` that must not be blank. -/
def fits (n : Nat) (text : PyStr) : Bool := (varchar n text).any notBlank

/-- The length and not-blank constraints of `customers`. -/
def customerFits (email : PyStr) : Bool := fits 320 email

/-- Those of `tickets`. -/
def NewTicket.fits (ticket : NewTicket) : Bool :=
  Storage.fits 200 ticket.subject && notBlank ticket.body &&
    ticket.ownerSubject.all fun owner => (varchar 200 owner).isSome

/-- Those of `documents`. -/
def documentFits (title content : PyStr) : Bool := fits 300 title && notBlank content

def NewTicket.storable (ticket : NewTicket) : Bool :=
  Storage.storable ticket.subject && Storage.storable ticket.body &&
    ticket.ownerSubject.all Storage.storable

def documentStorable (title content : PyStr) : Bool := storable title && storable content

/-- Whether `document_chunks` takes a row. -/
def Chunk.accepted (pg : Postgres) (chunk : Chunk) : Bool :=
  storable chunk.content && notBlank chunk.content && pg.vector chunk.embedding

/-! ## Sessions -/

/-- Why a statement does not go through. -/
inductive Failure
  /-- No connection is to be had, or the deadline passes while one is waited for. -/
  | unavailable (cancelled : Bool)
  /-- The server refuses the statement. -/
  | refused
  /-- The connection is lost, which is also what a deadline that passes does to it. -/
  | lost (cancelled : Bool)
  deriving DecidableEq, Repr

/-- What the services raise. -/
inductive StorageError
  | sqlalchemy (integrity : Bool)
  | valueError
  | embedder (exception : PyException)
  /-- The deadline passed. -/
  | cancelled
  deriving DecidableEq

def Failure.raised : Failure → StorageError
  | .unavailable true | .lost true => .cancelled
  | _ => .sqlalchemy false

/-- A session, and what is staged in its transaction. -/
structure Session where
  state : SessionState
  staged : Tables
  deriving DecidableEq

/-- A session that nothing was asked of yet. -/
def Session.fresh : Session := { state := .idle, staged := {} }

/-- What is committed, how many ids were drawn, and one session. -/
structure World where
  tables : Tables
  drawn : Nat
  session : Session
  deriving DecidableEq

/-- What a service asks of its session. -/
inductive Call
  /-- `scalar(select(Customer).where(Customer.email == email))`. -/
  | findCustomer (email : PyStr)
  /-- `async with begin_nested(): add(Customer(email=email))`. -/
  | insertCustomer (email : PyStr)
  /-- `add(Ticket(...))` and `flush()`. -/
  | flushTicket (ticket : NewTicket)
  /-- `add(Document(...))` and `flush()`. -/
  | flushDocument (title content : PyStr)
  /-- `add_all(chunks)` and `commit()`. -/
  | commitChunks (chunks : List Chunk)
  | commit

abbrev Call.Reply : Call → Type
  | .findCustomer _ => Option Customer
  | .insertCustomer _ => Customer
  | .flushTicket _ => Ticket
  | .flushDocument _ _ => Document
  | .commitChunks _ => Unit
  | .commit => Unit

namespace World

/-- What the session sees. -/
def seen (w : World) : Tables := w.tables ++ w.session.staged

/-- A transaction is open. -/
def begun (w : World) : World := { w with session := { w.session with state := .begun } }

/-- Flushed, in the open transaction. -/
def stage (w : World) (rows : Tables) : World :=
  { w with drawn := w.drawn + 1, session := { state := .begun, staged := w.session.staged ++ rows } }

/-- The transaction is lost. -/
def abort (w : World) : World := { w with session := { state := .inactive, staged := {} } }

/-- What is staged is permanent, and some rows more. -/
def commit (w : World) (rows : Tables) : World :=
  { w with tables := w.tables ++ w.session.staged ++ rows, session := .fresh }

/-- `begun` is in a transaction. -/
@[simp]
theorem begun_state (w : World) : w.begun.session.state = .begun := rfl

/-- `stage` begins the transaction of the session. -/
@[simp]
theorem stage_state (w : World) (rows : Tables) : (w.stage rows).session.state = .begun := rfl

/-- `stage` puts its customers behind those that are staged. -/
theorem stage_customers (w : World) (rows : Tables) :
    (w.stage rows).session.staged.customers = w.session.staged.customers ++ rows.customers := rfl

/-- `begun` draws no id. -/
@[simp]
theorem begun_drawn (w : World) : w.begun.drawn = w.drawn := rfl

/-- `stage` draws one. -/
@[simp]
theorem stage_drawn (w : World) (rows : Tables) : (w.stage rows).drawn = w.drawn + 1 := rfl

/-- `commit` draws none. -/
@[simp]
theorem commit_drawn (w : World) (rows : Tables) : (w.commit rows).drawn = w.drawn := rfl

/-- `begun` sees what was seen. -/
@[simp]
theorem begun_seen (w : World) : w.begun.seen = w.seen := rfl

/-- `stage` leaves what is committed. -/
@[simp]
theorem stage_tables (w : World) (rows : Tables) : (w.stage rows).tables = w.tables := rfl

/-- `stage` puts its rows behind the staged ones. -/
@[simp]
theorem stage_staged (w : World) (rows : Tables) :
    (w.stage rows).session.staged = w.session.staged ++ rows := rfl

/-- `commit` puts what was staged behind what is committed. -/
@[simp]
theorem commit_tables (w : World) (rows : Tables) :
    (w.commit rows).tables = w.tables ++ w.session.staged ++ rows := rfl

/-- `commit` leaves nothing staged. -/
@[simp]
theorem commit_staged (w : World) (rows : Tables) : (w.commit rows).session.staged = {} := rfl

/-- What is staged is seen. -/
@[simp]
theorem stage_seen_customers (w : World) (rows : Tables) :
    (w.stage rows).seen.customers = w.seen.customers ++ rows.customers :=
  (List.append_assoc _ _ _).symm

/-- What the session sees after `commit` are the customers it saw and the committed ones. -/
@[simp]
theorem commit_seen_customers (w : World) (rows : Tables) :
    (w.commit rows).seen.customers = w.seen.customers ++ rows.customers :=
  List.append_nil _

/-- `abort` leaves the session inactive. -/
@[simp]
theorem abort_state (w : World) : w.abort.session.state = .inactive := rfl

/-- `commit` leaves it idle. -/
@[simp]
theorem commit_state (w : World) (rows : Tables) : (w.commit rows).session.state = .idle := rfl

end World

section Calls

variable (pg : Postgres) (failure : Option Failure) (w : World)

def findCustomer (email : PyStr) : Except StorageError (Option Customer) × World :=
  match failure with
  -- Without a connection no transaction was begun.
  | some (.unavailable cancelled) =>
    (.error (Failure.unavailable cancelled).raised, if w.session.state = .idle then w else w.abort)
  | some failure => (.error failure.raised, w.abort)
  | none =>
    -- A surrogate is refused before anything is sent.
    if !wellFormed email then (.error (.sqlalchemy false), w.begun)
    else if !storable email then (.error (.sqlalchemy false), w.abort)
    else (.ok (w.seen.customers.find? fun customer => customer.email = email), w.begun)

def insertCustomer (email : PyStr) : Except StorageError Customer × World :=
  match failure with
  | some .refused => (.error (.sqlalchemy false), w.begun)
  | some failure => (.error failure.raised, w.abort)
  | none =>
    match varchar 320 email with
    | none => (.error (.sqlalchemy false), w.begun)
    | some stored =>
      if !storable email then (.error (.sqlalchemy false), w.begun)
      else if !notBlank stored || pg.lower stored ≠ stored ||
          w.seen.customers.any (fun customer => customer.email = stored) then
        (.error (.sqlalchemy true), w.begun)
      else
        (.ok { id := w.drawn, email }, w.stage { customers := [{ id := w.drawn, email := stored }] })

def flushTicket (ticket : NewTicket) : Except StorageError Ticket × World :=
  match failure with
  | some failure => (.error failure.raised, w.abort)
  | none =>
    match varchar 200 ticket.subject with
    | none => (.error (.sqlalchemy false), w.abort)
    | some subject =>
      if !ticket.ownerSubject.all (fun owner => (varchar 200 owner).isSome) || !ticket.storable then
        (.error (.sqlalchemy false), w.abort)
      else if !ticket.fits ||
          !w.seen.customers.any (fun customer => customer.id = ticket.customerId) then
        (.error (.sqlalchemy true), w.abort)
      else
        (.ok { ticket with id := w.drawn }, w.stage { tickets := [{ ticket with
          id := w.drawn, subject, ownerSubject := ticket.ownerSubject.bind (varchar 200) }] })

def flushDocument (title content : PyStr) : Except StorageError Document × World :=
  match failure with
  | some failure => (.error failure.raised, w.abort)
  | none =>
    match varchar 300 title with
    | none => (.error (.sqlalchemy false), w.abort)
    | some stored =>
      if !documentStorable title content then (.error (.sqlalchemy false), w.abort)
      else if !documentFits title content then (.error (.sqlalchemy true), w.abort)
      else
        (.ok { id := w.drawn, title, content },
          w.stage { documents := [{ id := w.drawn, title := stored, content }] })

def commitChunks (chunks : List Chunk) : Except StorageError Unit × World :=
  match failure with
  | some failure => (.error failure.raised, w.abort)
  | none =>
    if chunks.all (Chunk.accepted pg) then (.ok (), w.commit { chunks })
    else (.error (.sqlalchemy false), w.abort)

def commit : Except StorageError Unit × World :=
  match failure with
  | some failure => (.error failure.raised, w.abort)
  | none => (.ok (), w.commit {})

/-- One call. An inactive session rejects everything until it is rolled back. -/
def exec (c : Call) : Except StorageError c.Reply × World :=
  if w.session.state = .inactive then (.error (.sqlalchemy false), w)
  else
    match c with
    | .findCustomer email => findCustomer failure w email
    | .insertCustomer email => insertCustomer pg failure w email
    | .flushTicket ticket => flushTicket failure w ticket
    | .flushDocument title content => flushDocument failure w title content
    | .commitChunks chunks => commitChunks pg failure w chunks
    | .commit => commit failure w

end Calls

/-! ## What a call does -/

section Inversion

variable {pg : Postgres} {failure : Option Failure} {w t : World}

/-- In an inactive session every statement fails. -/
theorem exec_of_inactive (c : Call) (h : w.session.state = .inactive) :
    exec pg failure w c = (.error (.sqlalchemy false), w) := by
  unfold exec
  rw [if_pos h]

/-- In any other, `exec` is the statement. -/
theorem exec_eq (c : Call) (h : w.session.state ≠ .inactive) :
    exec pg failure w c =
      match c with
      | .findCustomer email => findCustomer failure w email
      | .insertCustomer email => insertCustomer pg failure w email
      | .flushTicket ticket => flushTicket failure w ticket
      | .flushDocument title content => flushDocument failure w title content
      | .commitChunks chunks => commitChunks pg failure w chunks
      | .commit => commit failure w := by
  unfold exec
  rw [if_neg h]

/-- The call flushes outside of a savepoint. -/
def Call.flushes : Call → Bool
  | .findCustomer _ | .insertCustomer _ => false
  | _ => true

/-- A flush that fails leaves the world `abort` makes, with nothing staged. -/
theorem flush_error {c : Call} {e : StorageError} (hflush : c.flushes = true)
    (hactive : w.session.state ≠ .inactive) (h : exec pg failure w c = (.error e, t)) :
    t = w.abort := by
  rw [exec_eq c hactive] at h
  cases c with
  | findCustomer email | insertCustomer email => exact nomatch hflush
  -- Wherever the flush of the ticket raises, the transaction is aborted
  | flushTicket ticket =>
    simp only [flushTicket] at h
    split at h
    · exact (Prod.mk.inj h).2.symm
    · split at h
      · exact (Prod.mk.inj h).2.symm
      · split at h
        · exact (Prod.mk.inj h).2.symm
        · split at h
          · exact (Prod.mk.inj h).2.symm
          · exact nomatch (Prod.mk.inj h).1
  | flushDocument title content =>
    simp only [flushDocument] at h
    split at h
    · exact (Prod.mk.inj h).2.symm
    · split at h
      · exact (Prod.mk.inj h).2.symm
      · split at h
        · exact (Prod.mk.inj h).2.symm
        · split at h
          · exact (Prod.mk.inj h).2.symm
          · exact nomatch (Prod.mk.inj h).1
  -- The chunks are flushed by the COMMIT, which aborts as well
  | commitChunks chunks =>
    simp only [commitChunks] at h
    split at h
    · exact (Prod.mk.inj h).2.symm
    · split at h
      · exact nomatch (Prod.mk.inj h).1
      · exact (Prod.mk.inj h).2.symm
  | commit =>
    simp only [commit] at h
    split at h
    · exact (Prod.mk.inj h).2.symm
    · exact nomatch (Prod.mk.inj h).1

/-- A call that raises leaves what is staged as it is, or loses it by `abort`. -/
theorem exec_error {c : Call} {e : StorageError} (h : exec pg failure w c = (.error e, t)) :
    t = w ∨ t = w.begun ∨ t = w.abort := by
  -- An inactive session rejects the statement before it reaches the database
  by_cases hactive : w.session.state = .inactive
  · rw [exec_of_inactive c hactive] at h
    exact .inl (Prod.mk.inj h).2.symm
  by_cases hflush : c.flushes = true
  · exact .inr (.inr (flush_error hflush hactive h))
  rw [exec_eq c hactive] at h
  cases c with
  -- A SELECT flushes nothing: it fails with the connection, or finds nothing that can be asked for
  | findCustomer email =>
    simp only [findCustomer] at h
    split at h
    · obtain ⟨-, rfl⟩ := Prod.mk.inj h
      split
      · exact .inl rfl
      · exact .inr (.inr rfl)
    · exact .inr (.inr (Prod.mk.inj h).2.symm)
    · split at h
      · exact .inr (.inl (Prod.mk.inj h).2.symm)
      · split at h
        · exact .inr (.inr (Prod.mk.inj h).2.symm)
        · exact nomatch (Prod.mk.inj h).1
  -- The savepoint takes an INSERT that is refused back
  | insertCustomer email =>
    simp only [insertCustomer] at h
    split at h
    · exact .inr (.inl (Prod.mk.inj h).2.symm)
    · exact .inr (.inr (Prod.mk.inj h).2.symm)
    · split at h
      · exact .inr (.inl (Prod.mk.inj h).2.symm)
      · split at h
        · exact .inr (.inl (Prod.mk.inj h).2.symm)
        · split at h
          · exact .inr (.inl (Prod.mk.inj h).2.symm)
          · exact nomatch (Prod.mk.inj h).1
  | flushTicket | flushDocument | commitChunks | commit => exact absurd rfl hflush

/-- A call that returns was made on an active session. -/
theorem active_of_ok {c : Call} {reply : c.Reply} (h : exec pg failure w c = (.ok reply, t)) :
    w.session.state ≠ .inactive := by
  intro hinactive
  rw [exec_of_inactive c hinactive] at h
  exact nomatch (Prod.mk.inj h).1

/-- What a `SELECT` that succeeds gives. -/
theorem findCustomer_ok {email : PyStr} {found : Option Customer}
    (h : exec pg failure w (.findCustomer email) = (.ok found, t)) :
    storable email = true ∧
      found = w.seen.customers.find? (fun customer => customer.email = email) ∧ t = w.begun := by
  rw [exec_eq _ (active_of_ok h)] at h
  simp only [findCustomer] at h
  split at h
  · exact nomatch (Prod.mk.inj h).1
  · exact nomatch (Prod.mk.inj h).1
  · split at h
    · exact nomatch (Prod.mk.inj h).1
    · split at h
      · exact nomatch (Prod.mk.inj h).1
      · rename_i hstorable
        exact ⟨by simpa using hstorable, (Except.ok.inj (Prod.mk.inj h).1).symm,
          (Prod.mk.inj h).2.symm⟩

/-- What `customers` takes. -/
structure CustomerAccepted (pg : Postgres) (email stored : PyStr) : Prop where
  held : varchar 320 email = some stored
  storable : Storage.storable email = true
  notBlank : Storage.notBlank stored = true
  lower : pg.lower stored = stored

/-- What an `INSERT` that succeeds stages. -/
theorem insertCustomer_ok {email : PyStr} {customer : Customer}
    (h : exec pg failure w (.insertCustomer email) = (.ok customer, t)) :
    customer = { id := w.drawn, email } ∧ ∃ stored, CustomerAccepted pg email stored ∧
      w.seen.customers.any (fun customer => customer.email = stored) = false ∧
      t = w.stage { customers := [{ id := w.drawn, email := stored }] } := by
  rw [exec_eq _ (active_of_ok h)] at h
  simp only [insertCustomer] at h
  split at h
  · exact nomatch (Prod.mk.inj h).1
  · exact nomatch (Prod.mk.inj h).1
  · split at h
    · exact nomatch (Prod.mk.inj h).1
    · rename_i stored hstored
      split at h
      · exact nomatch (Prod.mk.inj h).1
      · rename_i hstorable
        split at h
        · exact nomatch (Prod.mk.inj h).1
        · rename_i hnew
          simp only [Bool.or_eq_true, not_or, Bool.not_eq_true, Bool.not_eq_false',
            decide_eq_false_iff_not, ne_eq, Decidable.not_not] at hnew
          exact ⟨(Except.ok.inj (Prod.mk.inj h).1).symm, stored,
            ⟨hstored, by simpa using hstorable, hnew.1.1, hnew.1.2⟩, hnew.2,
            (Prod.mk.inj h).2.symm⟩

/-- What a ticket that is flushed stages. -/
theorem flushTicket_ok {ticket : NewTicket} {reply : Ticket}
    (h : exec pg failure w (.flushTicket ticket) = (.ok reply, t)) :
    ticket.storable = true ∧ ticket.fits = true ∧ reply = { ticket with id := w.drawn } ∧
      ∃ row : Ticket, row.id = w.drawn ∧ row.customerId = ticket.customerId ∧
        t = w.stage { tickets := [row] } := by
  rw [exec_eq _ (active_of_ok h)] at h
  simp only [flushTicket] at h
  split at h
  · exact nomatch (Prod.mk.inj h).1
  · split at h
    · exact nomatch (Prod.mk.inj h).1
    · split at h
      · exact nomatch (Prod.mk.inj h).1
      · rename_i hstorable
        split at h
        · exact nomatch (Prod.mk.inj h).1
        · rename_i hfits
          simp only [Bool.or_eq_true, not_or, Bool.not_eq_true, Bool.not_eq_false'] at hstorable hfits
          exact ⟨hstorable.2, hfits.1, (Except.ok.inj (Prod.mk.inj h).1).symm, _, rfl, rfl,
            (Prod.mk.inj h).2.symm⟩

/-- What a document that is flushed stages. -/
theorem flushDocument_ok {title content : PyStr} {document : Document}
    (h : exec pg failure w (.flushDocument title content) = (.ok document, t)) :
    documentStorable title content = true ∧ documentFits title content = true ∧
      document = { id := w.drawn, title, content } ∧ ∃ stored,
        t = w.stage { documents := [{ id := w.drawn, title := stored, content }] } := by
  rw [exec_eq _ (active_of_ok h)] at h
  simp only [flushDocument] at h
  split at h
  · exact nomatch (Prod.mk.inj h).1
  · split at h
    · exact nomatch (Prod.mk.inj h).1
    · split at h
      · exact nomatch (Prod.mk.inj h).1
      · rename_i hstorable
        split at h
        · exact nomatch (Prod.mk.inj h).1
        · rename_i hfits
          exact ⟨by simpa using hstorable, by simpa using hfits,
            (Except.ok.inj (Prod.mk.inj h).1).symm, _, (Prod.mk.inj h).2.symm⟩

/-- What chunks that are committed leave. -/
theorem commitChunks_ok {chunks : List Chunk}
    (h : exec pg failure w (.commitChunks chunks) = (.ok (), t)) : t = w.commit { chunks } := by
  rw [exec_eq _ (active_of_ok h)] at h
  simp only [commitChunks] at h
  split at h
  · exact nomatch (Prod.mk.inj h).1
  · split at h
    · exact (Prod.mk.inj h).2.symm
    · exact nomatch (Prod.mk.inj h).1

/-- What a `COMMIT` leaves. -/
theorem commit_ok (h : exec pg failure w .commit = (.ok (), t)) : t = w.commit {} := by
  rw [exec_eq _ (active_of_ok h)] at h
  simp only [commit] at h
  split at h
  · exact nomatch (Prod.mk.inj h).1
  · exact (Prod.mk.inj h).2.symm

end Inversion

end NexaAssist.Storage
