import NexaAssist.ForStd.JsonText
import NexaAssist.Llm.RateLimit
import NexaAssist.Realtime.Envelope

/-!
# Frames as texts

What `model_dump_json` writes of a message of the server's, what `JSON.stringify` writes of a
frame of the client's, and how a text that arrives is measured and read.
-/

namespace NexaAssist

open PyJson

/-! ## The server's -/

def Citation.json (citation : Citation) : Json :=
  .obj [(lit "document_id", .str citation.documentId.str),
    (lit "document_title", .str citation.documentTitle),
    (lit "ordinal", .int citation.ordinal),
    (lit "excerpt", .str citation.excerpt),
    (lit "similarity", .float (.finite citation.similarity.val))]

/-- A UUID, or `null`. -/
def idJson : Option Uuid → Json
  | none => .null
  | some id => .str id.str

def ServerMessage.json : ServerMessage → Json
  | .delta text => .obj [(lit "type", .str (lit "delta")), (lit "text", .str text)]
  | .complete text deltas conversationId grounded citations escalated =>
    .obj [(lit "type", .str (lit "complete")), (lit "text", .str text),
      (lit "deltas", .int deltas), (lit "conversation_id", idJson conversationId),
      (lit "grounded", .bool grounded), (lit "citations", .arr (citations.map Citation.json)),
      (lit "escalated", .bool escalated)]
  | .error code message =>
    .obj [(lit "type", .str (lit "error")), (lit "code", .str code),
      (lit "message", .str message), (lit "details", .null)]

namespace FrameText

def PROTOCOL_VERSION : Nat := 1

/-- `Ready(connection_id=..)`. -/
def readyJson (connectionId : PyStr) : Json :=
  .obj [(lit "type", .str (lit "ready")), (lit "connection_id", .str connectionId),
    (lit "protocol_version", .int PROTOCOL_VERSION)]

/-- `Pong()`. -/
def pongJson : Json := .obj [(lit "type", .str (lit "pong"))]

/-- `model_dump_json` of a value, where floats are written by `print`. A surrogate cannot be
    written. -/
def frameText (print : Rat → PyStr) (content : Json) : Option PyStr :=
  if (RateLimit.texts content).all wellFormed then
    some (JsonText.docText print (RateLimit.write content))
  else none

/-! ## The client's -/

/-- The text of `JSON.stringify`, of an object without numbers. -/
def textOf (o : JsObject) : PyStr := JsonText.docText (fun _ => []) o.stringify

/-- `len(raw.encode("utf-8"))`. -/
def utf8Length (text : PyStr) : Nat := (text.map utf8Bytes).sum

/-- One turn of the loop of `_serve`, with the text that arrived. -/
def receiveText (uuid : PyStr → Option Uuid) (maxMessageBytes : Nat) (raw : PyStr) : Received :=
  receive uuid maxMessageBytes
    { document := JsonText.parse JsonDoc.int raw, bytes := utf8Length raw }

end FrameText

end NexaAssist
