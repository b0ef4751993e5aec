import NexaAssist.Schemas.Types

/-!
# The tables

Rows as the services read and write them, and the database that holds them. A table is
the list of its rows.
-/

namespace NexaAssist

open PyJson

structure Ticket where
  id : Uuid
  customerId : Uuid
  ownerSubject : Option PyStr
  subject : PyStr
  body : PyStr
  status : TicketStatus
  createdAt : Int
  updatedAt : Int
  deriving DecidableEq

structure Conversation where
  id : Uuid
  customerId : Uuid
  ownerSubject : Option PyStr
  createdAt : Int
  deriving DecidableEq

/-- One turn of a conversation. -/
structure ConversationMessage where
  conversationId : Uuid
  position : Nat
  role : MessageRole
  content : PyStr
  tokenEstimate : Nat
  citations : List Citation
  createdAt : Int
  deriving DecidableEq

inductive ReviewStatus
  | pending
  | claimed
  | resolved
  deriving DecidableEq, Repr

/-- A request waiting for a person. -/
structure ReviewItem where
  id : Uuid
  ticketId : Option Uuid
  message : PyStr
  proposedReply : Option PyStr
  intent : PyStr
  reason : PyStr
  status : ReviewStatus
  deriving DecidableEq

structure Document where
  id : Uuid
  title : PyStr
  deriving DecidableEq

structure DocumentChunk where
  id : Uuid
  documentId : Uuid
  ordinal : Nat
  content : PyStr
  embedding : List Rat
  deriving DecidableEq

structure Database where
  tickets : List Ticket
  conversations : List Conversation
  messages : List ConversationMessage
  reviewItems : List ReviewItem
  documents : List Document
  chunks : List DocumentChunk
  deriving DecidableEq

end NexaAssist
