import NexaAssist.Api.Assistant
import NexaAssist.Api.Records

/-!
# What a client can ask for

The requests a subject can make where resources are scoped by subject, over HTTP or on a
socket that has the pipeline.
-/

namespace NexaAssist

open PyJson

inductive Request
  | getTicket (ticketId : Uuid)
  | listTickets (status : Option TicketStatus) (limit offset : Nat)
  | readConversation (conversationId : Uuid)
  | readHistory (conversationId : Uuid) (limit : Option Nat)
  /-- A turn of the socket's, recorded in a session of its own. -/
  | append (conversationId : Uuid) (role : MessageRole) (content : PyStr)
  /-- `POST /assistant/messages`. -/
  | message (message : Text) (conversationId : Option Uuid)
  /-- A question on a socket, answered through the pipeline. -/
  | ask (question : Text) (conversationId : Option Uuid)

inductive Response
  | ticket (ticket : TicketResponse)
  | tickets (page : TicketListResponse)
  | conversation (conversation : ConversationResponse)
  | history (history : ConversationHistoryResponse)
  | appended (message : ConversationMessage)
  | reply (reply : AssistantReply)
  | frames (frames : List ServerMessage)

/-- Serve a request of a subject. -/
def serve (subject : PyStr) (request : Request) : App Response :=
  let scope := SubjectScopedAuthorizer.scopeFor subject
  match request with
  | .getTicket ticketId => .ticket <$> getTicket ticketId scope
  | .listTickets status limit offset => .tickets <$> listTickets status limit offset scope
  | .readConversation conversationId => .conversation <$> readConversation conversationId scope
  | .readHistory conversationId limit => .history <$> readHistory conversationId limit scope
  | .append conversationId role content => .appended <$> App.inNewSession
      (ConversationService.append conversationId role content [] scope)
  | .message message conversationId => .reply <$> answerMessage message conversationId scope
  | .ask question conversationId => do
    let env ← Effect.ask
    let service := getAssistantService env.settings env.text.word
    .frames <$> AnswerStreamer.answerGrounded
      (SessionAnswerer service scope env.settings.databaseConfigured) question conversationId

end NexaAssist
