import Mathlib.Data.List.Sort
import NexaAssist.Db.Session

/-!
# Tickets, conversations and the review queue

The services over the tables customers write to. A scope restricts what is read to one
subject's rows, and a row of another subject raises what a missing one does.
-/

namespace NexaAssist

open PyJson

/-! ## Scopes -/

/-- A restriction to one subject's resources. -/
structure OwnerScope where
  subject : PyStr
  deriving DecidableEq

/-- Whether a scope may see a resource with that owner. An unowned one it may not. -/
def OwnerScope.permits (scope : OwnerScope) (owner : Option PyStr) : Bool :=
  owner = some scope.subject

/-- Whether a service that was given a scope, or none, refuses a resource. -/
def refuses (scope : Option OwnerScope) (owner : Option PyStr) : Bool :=
  scope.any fun scope => !scope.permits owner

/-! ## Tickets -/

def MAX_PAGE_SIZE : Nat := 100

/-- Newest first, and by the id among tickets of one time. -/
def newestFirst (a b : Ticket) : Bool :=
  b.createdAt < a.createdAt || (a.createdAt = b.createdAt && b.id.le a.id)

namespace TicketService

/-- One ticket. -/
def get (ticketId : Uuid) (scope : Option OwnerScope) : App Ticket := do
  let ticket ← App.select (.ticket ticketId) fun _ db =>
    db.tickets.find? fun ticket => ticket.id = ticketId
  match ticket with
  | none => throw (.app (ticketNotFoundError [("ticket_id", ticketId.str)]))
  | some ticket =>
    if refuses scope ticket.ownerSubject then
      throw (.app (ticketNotFoundError [("ticket_id", ticketId.str)]))
    else pure ticket

/-- The tickets a listing is about: of one status, and of one subject. -/
def matching (status : Option TicketStatus) (scope : Option OwnerScope) (ticket : Ticket) : Bool :=
  status.all (fun status => ticket.status = status) &&
    scope.all fun scope => ticket.ownerSubject = some scope.subject

/-- A page of the tickets a listing is about. -/
def page (status : Option TicketStatus) (scope : Option OwnerScope) (limit offset : Nat)
    (tickets : List Ticket) : List Ticket :=
  (((tickets.filter (matching status scope)).insertionSort (newestFirst · ·)).drop offset).take
    (min limit MAX_PAGE_SIZE)

/-- A page of tickets, newest first. -/
def list (status : Option TicketStatus) (limit offset : Nat) (scope : Option OwnerScope) :
    App (List Ticket) :=
  App.select (.tickets status limit) fun _ db => page status scope limit offset db.tickets

end TicketService

/-! ## Conversations -/

def CHARS_PER_TOKEN : Nat := 4

/-- A deliberately conservative token estimate. -/
def estimateTokens (text : PyStr) : Nat :=
  max 1 ((text.length + (CHARS_PER_TOKEN - 1)) / CHARS_PER_TOKEN)

/-- `model_dump(mode="json")`. -/
def Citation.modelDump (citation : Citation) : PyValue :=
  .dict [
    (.str (lit "document_id"), .str citation.documentId.str),
    (.str (lit "document_title"), .str citation.documentTitle),
    (.str (lit "ordinal"), .int citation.ordinal),
    (.str (lit "excerpt"), .str citation.excerpt),
    (.str (lit "similarity"), .float (.finite citation.similarity.val))]

/-- What the column `citations` of a turn holds. -/
def ConversationMessage.citationsColumn (message : ConversationMessage) : PyValue :=
  .list (message.citations.map Citation.modelDump)

namespace ConversationService

/-- One conversation. -/
def get (conversationId : Uuid) (scope : Option OwnerScope) : App Conversation := do
  let conversation ← App.select .nothing fun _ db =>
    db.conversations.find? fun conversation => conversation.id = conversationId
  match conversation with
  | none => throw (.app (conversationNotFoundError [("conversation_id", conversationId.str)]))
  | some conversation =>
    if refuses scope conversation.ownerSubject then
      throw (.app (conversationNotFoundError [("conversation_id", conversationId.str)]))
    else pure conversation

/-- The turns of one conversation, as they are stored. -/
def turnsOf (conversationId : Uuid) (db : Database) : List ConversationMessage :=
  db.messages.filter fun message => message.conversationId = conversationId

/-- One past the highest position, or 0. -/
def nextPosition (conversationId : Uuid) : App Nat :=
  App.select .nothing fun _ db =>
    match ((turnsOf conversationId db).map (·.position)).max? with
    | none => 0
    | some highest => highest + 1

/-- Add a turn at the next position. -/
def append (conversationId : Uuid) (role : MessageRole) (content : PyStr)
    (citations : List Citation) (scope : Option OwnerScope) : App ConversationMessage := do
  -- 404 rather than a foreign-key error.
  let _ ← get conversationId scope
  let position ← nextPosition conversationId
  let message ← App.insert
    (fun env n => {
      conversationId, position, role, content
      tokenEstimate := estimateTokens content
      citations
      createdAt := env.now n })
    (fun message db => { db with messages := db.messages ++ [message] })
  App.commit
  pure message

/-- Turns in reading order: all, or the most recent `limit`. -/
def recent (limit : Option Nat) (turns : List ConversationMessage) : List ConversationMessage :=
  let ordered := turns.insertionSort fun a b => a.position ≤ b.position
  match limit with
  | none => ordered
  | some limit => ordered.drop (ordered.length - limit)

/-- Messages in order. `limit` returns the most recent, still ordered. -/
def history (conversationId : Uuid) (limit : Option Nat) : App (List ConversationMessage) :=
  App.select .nothing fun _ db => recent limit (turnsOf conversationId db)

end ConversationService

/-! ## The review queue -/

/-- Why a request is escalated. -/
inductive EscalationReason
  | unresolved
  | lowConfidence
  | uncategorised
  | policy
  | complaint
  deriving DecidableEq, Repr

def EscalationReason.value : EscalationReason → PyStr
  | .unresolved => lit "unresolved"
  | .lowConfidence => lit "low_confidence"
  | .uncategorised => lit "uncategorised"
  | .policy => lit "policy"
  | .complaint => lit "complaint"

/-- Add a request to the queue. -/
def ReviewQueue.enqueue (message : PyStr) (intent : IntentCategory) (reason : EscalationReason)
    (proposedReply : Option PyStr) (ticketId : Option Uuid) : App ReviewItem := do
  let item ← App.insert
    (fun env n => {
      id := env.genRandomUuid n
      ticketId, message, proposedReply
      intent := intent.value
      reason := reason.value
      status := .pending })
    (fun item db => { db with reviewItems := db.reviewItems ++ [item] })
  App.commit
  pure item

end NexaAssist
