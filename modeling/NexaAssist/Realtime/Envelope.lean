import NexaAssist.Core.Errors
import NexaAssist.ForStd.JsJson
import NexaAssist.Schemas.Assistant

/-!
# What a client may send on a socket

The frames a client may send, how a text is read as one, and what the socket does with it
first. A text is given as the document it is written for, if it is one, and its length.
-/

namespace NexaAssist

open PyJson

/-- A frame did not match the wire contract. -/
def realtimeProtocolError : AppError where
  statusCode := 400
  code := "realtime_protocol_error"
  message := lit "The message did not match the expected format."
  details := []

def MAX_QUESTION_LENGTH : Nat := 4000

inductive ClientMessage
  | ping
  | ask (question : BoundedText MAX_QUESTION_LENGTH) (conversationId : Option Uuid)
  deriving DecidableEq

/-- `parse_client_message`. A union that is told apart by `type`. -/
def parseClientMessage (uuid : PyStr → Option Uuid) (document : JsonDoc) : Option ClientMessage :=
  match loads document with
  | .dict entries =>
    match dictLookup entries (.str (lit "type")) with
    | some (.str type) =>
      if type = lit "ping" then
        if onlyFields ["type"] entries then some .ping else none
      else if type = lit "ask" then
        if onlyFields ["type", "question", "conversation_id"] entries then do
          let question ← (dictLookup entries (.str (lit "question"))).bind
            (boundedText MAX_QUESTION_LENGTH)
          let conversationId ← optionalUuid uuid
            (dictLookup entries (.str (lit "conversation_id")))
          some (.ask question conversationId)
        else none
      else none
    | _ => none
  | _ => none

/-- A text that arrives. -/
structure RawFrame where
  document : Option JsonDoc
  bytes : Nat

/-- What `_serve` does with a text. -/
inductive Received
  /-- The socket is closed. -/
  | tooLarge
  /-- An error frame is sent. -/
  | refused (error : AppError)
  | handled (message : ClientMessage)

/-- One turn of the loop of `_serve`. -/
def receive (uuid : PyStr → Option Uuid) (maxMessageBytes : Nat) (raw : RawFrame) : Received :=
  if maxMessageBytes < raw.bytes then .tooLarge
  else
    match raw.document.bind (parseClientMessage uuid) with
    | none => .refused realtimeProtocolError
    | some message => .handled message

/-- `receive` handles a frame just if it is short enough and a client message. -/
theorem receive_eq_handled {uuid : PyStr → Option Uuid} {maxMessageBytes : Nat} {raw : RawFrame}
    {message : ClientMessage} :
    receive uuid maxMessageBytes raw = .handled message ↔ raw.bytes ≤ maxMessageBytes ∧
      raw.document.bind (parseClientMessage uuid) = some message := by
  unfold receive
  split
  · next hlarge => exact ⟨nofun, fun h => absurd h.1 (Nat.not_le.mpr hlarge)⟩
  · next hsmall =>
    rw [Nat.not_lt] at hsmall
    split
    · next hnone => exact ⟨nofun, fun h => nomatch hnone.symm.trans h.2⟩
    · next other hother =>
      rw [hother, Received.handled.injEq, Option.some.injEq]
      exact ⟨fun h => ⟨hsmall, h⟩, fun h => h.2⟩

/-- `realtime_max_message_bytes`, by default. -/
def DEFAULT_MAX_MESSAGE_BYTES : Nat := 65536

end NexaAssist
