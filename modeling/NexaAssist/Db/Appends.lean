import NexaAssist.ForStd.Machine
import NexaAssist.Services.Records

/-!
# Appends from many sessions

`ConversationService.append` in transactions that run at the same time, each at READ
COMMITTED: a statement sees what was committed before it. An insert whose key another open
transaction has inserted waits for that one to end, and one whose key is committed fails.
-/

namespace NexaAssist

open PyJson

/-- A row of `conversation_messages`, with its primary key. -/
structure MessageRow where
  id : Uuid
  message : ConversationMessage
  deriving DecidableEq

/-- The columns of the unique constraint. -/
def MessageRow.key (row : MessageRow) : Uuid × Nat :=
  (row.message.conversationId, row.message.position)

/-- The rows of one conversation, as they are stored. -/
def rowsOf (conversationId : Uuid) (rows : List MessageRow) : List MessageRow :=
  rows.filter fun row => row.message.conversationId = conversationId

/-! ## Appending -/

structure AppendRequest where
  conversationId : Uuid
  role : MessageRole
  content : PyStr
  citations : List Citation
  scope : Option OwnerScope

/-- How far a call of `append` has come. -/
inductive AppendStage
  | begun
  | found
  | positioned (position : Nat)
  /-- Its row is inserted, in its own transaction. -/
  | inserted (row : MessageRow)
  | returned (row : MessageRow)
  | raised (error : Raised)

structure AppendCall where
  request : AppendRequest
  stage : AppendStage

/-- What is committed, the calls, and those that committed, in that order. -/
structure Appends where
  conversations : List Conversation
  rows : List MessageRow
  calls : List AppendCall
  commits : List Nat

inductive AppendEvent
  | create (conversation : Conversation)
  | append (request : AppendRequest)
  /-- Call `n` does its next statement. `id` and `now` are for a row it inserts. -/
  | advance (n : Nat) (id : Uuid) (now : Int)
  /-- A statement of call `n` fails, and its transaction is rolled back. -/
  | fail (n : Nat)

/-- The row a call has inserted and not committed. -/
def AppendCall.open? (call : AppendCall) : Option MessageRow :=
  match call.stage with
  | .inserted row => some row
  | _ => none

/-- The row a call has committed. -/
def AppendCall.returned? (call : AppendCall) : Option MessageRow :=
  match call.stage with
  | .returned row => some row
  | _ => none

/-- `content_not_blank`: `btrim` takes spaces away. -/
def contentNotBlank (content : PyStr) : Bool := content.any fun c => c ≠ 0x20

/-- `_next_position`. -/
def nextPositionOf (conversationId : Uuid) (rows : List MessageRow) : Nat :=
  match ((rowsOf conversationId rows).map (·.message.position)).max? with
  | none => 0
  | some highest => highest + 1

namespace AppendRequest

def row (request : AppendRequest) (id : Uuid) (position : Nat) (now : Int) : MessageRow where
  id := id
  message := {
    conversationId := request.conversationId
    position := position
    role := request.role
    content := request.content
    tokenEstimate := estimateTokens request.content
    citations := request.citations
    createdAt := now }

end AppendRequest

namespace Appends

/-- Call `n` comes to a stage. -/
def become (s : Appends) (n : Nat) (request : AppendRequest) (stage : AppendStage) : Appends :=
  { s with calls := s.calls.set n { request, stage } }

/-- Rows in transactions that are open. -/
def openRows (s : Appends) : List MessageRow := s.calls.filterMap AppendCall.open?

def advance (s : Appends) (n : Nat) (id : Uuid) (now : Int) : Option Appends :=
  match s.calls[n]? with
  | none => none
  | some { request, stage } =>
    match stage with
    | .begun =>
      let missing : Raised := .app (conversationNotFoundError
        [("conversation_id", request.conversationId.str)])
      match s.conversations.find? fun conversation => conversation.id = request.conversationId with
      | none => some (s.become n request (.raised missing))
      | some conversation =>
        if refuses request.scope conversation.ownerSubject then
          some (s.become n request (.raised missing))
        else some (s.become n request .found)
    | .found =>
      some (s.become n request (.positioned (nextPositionOf request.conversationId s.rows)))
    | .positioned position =>
      let row := request.row id position now
      -- `gen_random_uuid` does not draw an id twice.
      if (s.rows ++ s.openRows).any (·.id = id) then none
      else if !contentNotBlank request.content then
        some (s.become n request (.raised .sqlalchemy))
      -- It waits for the other transaction.
      else if s.openRows.any (·.key = row.key) then none
      else if s.rows.any (·.key = row.key) then
        some (s.become n request (.raised .sqlalchemy))
      else some (s.become n request (.inserted row))
    | .inserted row =>
      some { s.become n request (.returned row) with
        rows := s.rows ++ [row], commits := s.commits ++ [n] }
    | .returned _ => none
    | .raised _ => none

def fail (s : Appends) (n : Nat) : Option Appends :=
  match s.calls[n]? with
  | none => none
  | some { request, stage } =>
    match stage with
    | .returned _ => none
    | .raised _ => none
    | _ => some (s.become n request (.raised .sqlalchemy))

def step (s : Appends) : AppendEvent → Option Appends
  | .create conversation =>
    if s.conversations.any (·.id = conversation.id) then none
    else some { s with conversations := s.conversations ++ [conversation] }
  | .append request => some { s with calls := s.calls ++ [{ request, stage := .begun }] }
  | .advance n id now => s.advance n id now
  | .fail n => s.fail n

end Appends

/-- Any number of appends, under every interleaving of their statements. -/
def appends : Machine Appends AppendEvent where
  init := { conversations := [], rows := [], calls := [], commits := [] }
  step := Appends.step

/-! ## Reading -/

/-- `history`. With a limit the newest are taken in a subquery, and put in order again. -/
def historyOf (conversationId : Uuid) (limit : Option Nat) (rows : List MessageRow) :
    List MessageRow :=
  match limit with
  | none =>
    (rowsOf conversationId rows).insertionSort fun a b => a.message.position ≤ b.message.position
  | some limit =>
    let recent := (((rowsOf conversationId rows).insertionSort fun a b =>
      b.message.position ≤ a.message.position).take limit).map (·.id)
    (rows.filter fun row => row.id ∈ recent).insertionSort fun a b =>
      a.message.position ≤ b.message.position

end NexaAssist
