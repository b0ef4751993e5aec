import NexaAssist.Frontend.Client
import NexaAssist.Realtime.Wire

/-!
# The client's copy of the wire contract

`parseServerFrame`, and what the socket's handler reads of the frame it gives. TypeScript takes
the fields of a frame to be of their types without looking; a frame with others is none here.
-/

namespace NexaAssist.Frontend

open PyJson
open ApiError (property stringProperty shown)

/-- A property that is read with `??`: it may be absent, or be `null`. -/
def optionalProperty {α : Type} (read : JsonDoc → Option α) (name : String)
    (fields : List (List StrItem × JsonDoc)) : Option (Option α) :=
  match property name fields with
  | none => some none
  | some .null => some none
  | some doc => (read doc).map some

def readText : JsonDoc → Option String
  | .str items => wireText (loadsStr items)
  | _ => none

def readBool : JsonDoc → Option Bool
  | .bool b => some b
  | _ => none

/-- A number, however it was spelled. -/
def readNumber : JsonDoc → Option Rat
  | .int i => some i
  | .float value => some value
  | _ => none

def readNat (doc : JsonDoc) : Option Nat :=
  (readNumber doc).bind fun value =>
    if value.den = 1 ∧ 0 ≤ value then some value.num.toNat else none

def readCitation : JsonDoc → Option Citation
  | .object fields => do
    let documentId ← (property "document_id" fields).bind readText
    let documentTitle ← (property "document_title" fields).bind readText
    let ordinal ← (property "ordinal" fields).bind readNat
    let excerpt ← (property "excerpt" fields).bind readText
    let similarity ← (property "similarity" fields).bind readNumber
    return { documentId, documentTitle, ordinal, excerpt, similarity }
  | _ => none

def readCitations : JsonDoc → Option (List Citation)
  | .array docs => wireList readCitation docs
  | _ => none

/-- The frame of an object with a `type`. -/
def readFrame (fields : List (List StrItem × JsonDoc)) (type : PyStr) : Option (Option ServerFrame) :=
  if type = lit "ready" then some do
    let connectionId ← (property "connection_id" fields).bind readText
    let protocolVersion ← (property "protocol_version" fields).bind readNat
    return .ready connectionId protocolVersion
  else if type = lit "pong" then some (some .pong)
  else if type = lit "delta" then some do
    let text ← (property "text" fields).bind readText
    return .delta text
  else if type = lit "complete" then some do
    let text ← (property "text" fields).bind readText
    let conversationId ← optionalProperty readText "conversation_id" fields
    let grounded ← optionalProperty readBool "grounded" fields
    let citations ← optionalProperty readCitations "citations" fields
    let escalated ← optionalProperty readBool "escalated" fields
    return .complete text conversationId grounded citations escalated
  else if type = lit "error" then some do
    let code ← (property "code" fields).bind readText
    let message ← (property "message" fields).bind readText
    return .error code message
  else none

/-- `parseServerFrame`. What it makes `null` of is `unrecognised`. -/
def parseServerFrame (text : PyStr) : Option ServerFrame :=
  let unrecognised := some (.unrecognised (shown text))
  match parseJson text with
  | some (.object fields) =>
    match stringProperty "type" fields with
    | none => unrecognised
    | some type => (readFrame fields type).getD unrecognised
  | _ => unrecognised

end NexaAssist.Frontend
