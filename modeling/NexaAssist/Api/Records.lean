import NexaAssist.Services.Records

/-!
# The ticket and conversation endpoints

What a client reads of its tickets and conversations. The session is the request's, and
is closed with it; the scope is the authorizer's.
-/

namespace NexaAssist

open PyJson

/-- `SubjectScopedAuthorizer.scope_for`. -/
def SubjectScopedAuthorizer.scopeFor (subject : PyStr) : Option OwnerScope := some { subject }

/-! ## Tickets -/

/-- One ticket, as returned by the API. -/
structure TicketResponse where
  id : Uuid
  customerId : Uuid
  subject : PyStr
  body : PyStr
  status : TicketStatus
  createdAt : Int
  updatedAt : Int

def TicketResponse.ofTicket (ticket : Ticket) : TicketResponse where
  id := ticket.id
  customerId := ticket.customerId
  subject := ticket.subject
  body := ticket.body
  status := ticket.status
  createdAt := ticket.createdAt
  updatedAt := ticket.updatedAt

/-- A page of tickets. -/
structure TicketListResponse where
  items : List TicketResponse
  limit : Nat
  offset : Nat

/-- `GET /tickets/{ticket_id}`. -/
def getTicket (ticketId : Uuid) (scope : Option OwnerScope) : App TicketResponse :=
  App.inNewSession do
    let ticket ← TicketService.get ticketId scope
    pure (.ofTicket ticket)

/-- `GET /tickets`. -/
def listTickets (status : Option TicketStatus) (limit offset : Nat) (scope : Option OwnerScope) :
    App TicketListResponse :=
  App.inNewSession do
    let tickets ← TicketService.list status limit offset scope
    pure { items := tickets.map .ofTicket, limit, offset }

/-! ## Conversations -/

/-- A conversation's identity. -/
structure ConversationResponse where
  id : Uuid
  customerId : Uuid
  createdAt : Int

def ConversationResponse.ofConversation (conversation : Conversation) : ConversationResponse where
  id := conversation.id
  customerId := conversation.customerId
  createdAt := conversation.createdAt

/-- One turn. -/
structure ConversationMessageResponse where
  position : Nat
  role : MessageRole
  content : PyStr
  createdAt : Int
  citations : List Citation

def ConversationMessageResponse.ofMessage (message : ConversationMessage) :
    ConversationMessageResponse where
  position := message.position
  role := message.role
  content := message.content
  createdAt := message.createdAt
  citations := message.citations

/-- A conversation's turns, oldest first. -/
structure ConversationHistoryResponse where
  conversationId : Uuid
  messages : List ConversationMessageResponse

/-- `GET /conversations/{conversation_id}`. -/
def readConversation (conversationId : Uuid) (scope : Option OwnerScope) :
    App ConversationResponse :=
  App.inNewSession do
    let conversation ← ConversationService.get conversationId scope
    pure (.ofConversation conversation)

/-- `GET /conversations/{conversation_id}/messages`. -/
def readHistory (conversationId : Uuid) (limit : Option Nat) (scope : Option OwnerScope) :
    App ConversationHistoryResponse :=
  App.inNewSession do
    -- A 404 before any history is read.
    let _ ← ConversationService.get conversationId scope
    let messages ← ConversationService.history conversationId limit
    pure { conversationId, messages := messages.map .ofMessage }

end NexaAssist
