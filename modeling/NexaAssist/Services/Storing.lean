import NexaAssist.Db.Storage
import NexaAssist.ForStd.Program
import NexaAssist.Rag.Chunking

/-!
# Ingesting documents and creating tickets

The services that write, as programs over a session. Each owns its transaction: it commits, and
nobody rolls back.
-/

namespace NexaAssist.Storage

open NexaAssist PyJson

/-- What a service does with its session. -/
abbrev Work (α : Type) := Program Call Call.Reply StorageError α

def ask (c : Call) : Work c.Reply := .perform c

namespace TicketService

/-- `normalise_email`. -/
def normaliseEmail (table : LowerTable) (email : PyStr) : PyStr := table.lower (PyStr.strip email)

def findCustomer (email : PyStr) : Work (Option Customer) := ask (.findCustomer email)

/-- `_get_or_create_customer`. -/
def getOrCreateCustomer (email : PyStr) : Work Customer := do
  match ← findCustomer email with
  | some existing => pure existing
  | none =>
    tryCatch (ask (.insertCustomer email)) fun
      | .sqlalchemy true => do
        -- The race is lost, and only the insert is rolled back.
        match ← findCustomer email with
        | none => throw (.sqlalchemy true)
        | some winner => pure winner
      | error => throw error

def create (table : LowerTable) (customerEmail subject body : PyStr)
    (ownerSubject : Option PyStr) : Work Ticket := do
  let customer ← getOrCreateCustomer (normaliseEmail table customerEmail)
  let ticket ← ask (.flushTicket { customerId := customer.id, ownerSubject, subject, body })
  ask .commit
  pure ticket

end TicketService

namespace CustomerService

/-- `normalise_email`. -/
def normaliseEmail (table : LowerTable) (email : PyStr) : PyStr := table.lower (PyStr.strip email)

def find (email : PyStr) : Work (Option Customer) := ask (.findCustomer email)

def getOrCreate (table : LowerTable) (email : PyStr) : Work Customer := do
  let address := normaliseEmail table email
  match ← find address with
  | some existing => pure existing
  | none =>
    let inserted ← tryCatch (some <$> ask (.insertCustomer address)) fun
      | .sqlalchemy true => pure none
      | error => throw error
    match inserted with
    | none =>
      match ← find address with
      | none => throw (.sqlalchemy true)
      | some winner => pure winner
    | some customer =>
      ask .commit
      pure customer

end CustomerService

namespace DocumentService

/-- `zip(pieces, vectors, strict=True)`. -/
def zipStrict : List PyStr → List Embedding → Option (List (PyStr × Embedding))
  | [], [] => some []
  | piece :: pieces, vector :: vectors => (zipStrict pieces vectors).map ((piece, vector) :: ·)
  | _, _ => none

/-- The chunks of a document, numbered in order. -/
def chunkRows (documentId : RowId) (pairs : List (PyStr × Embedding)) : List Chunk :=
  pairs.zipIdx.map fun ((content, embedding), ordinal) =>
    { documentId, ordinal, content, embedding }

/-- Raise where there is nothing. -/
def orRaise {α : Type} (error : StorageError) : Option α → Work α
  | none => throw error
  | some a => pure a

def ingest (embed : List PyStr → Except PyException (List Embedding)) (title content : PyStr) :
    Work Document := do
  let pieces ← orRaise .valueError (chunkText content DEFAULT_CHUNK_SIZE)
  let vectors ← .ofExcept ((embed pieces).mapError .embedder)
  let document ← ask (.flushDocument title content)
  let pairs ← orRaise .valueError (zipStrict pieces vectors)
  ask (.commitChunks (chunkRows document.id pairs))
  pure document

/-- `ingest` in two parts: up to the flush of the document, and behind it. -/
theorem ingest_eq (embed : List PyStr → Except PyException (List Embedding))
    (title content : PyStr) :
    ingest embed title content =
      let pieces := chunksOf content DEFAULT_CHUNK_SIZE
      match embed pieces with
      | .error exception => .ret (.error (.embedder exception))
      | .ok vectors => ask (.flushDocument title content) >>= fun document =>
        match zipStrict pieces vectors with
        | none => .ret (.error .valueError)
        | some pairs =>
          ask (.commitChunks (chunkRows document.id pairs)) >>= fun _ => .ret (.ok document) := by
  have hsize : chunkText content DEFAULT_CHUNK_SIZE =
      some (chunksOf content DEFAULT_CHUNK_SIZE) := if_neg (by decide)
  unfold ingest
  rw [hsize]
  simp only [orRaise, Program.pure_eq, Program.ret_bind, Program.ofExcept]
  cases embed (chunksOf content DEFAULT_CHUNK_SIZE) with
  | error exception => rfl
  | ok vectors =>
    simp only [Except.mapError]
    cases zipStrict (chunksOf content DEFAULT_CHUNK_SIZE) vectors <;> rfl

end DocumentService

end NexaAssist.Storage
