import NexaAssist.Schemas.Types

/-!
# Request bodies

What pydantic makes of the fields of a body that was read from JSON, and the body of the
assistant endpoint. How a UUID is written is pydantic's to know, and is a parameter.
-/

namespace NexaAssist

open PyJson

/-- A `str` with `min_length=1` and a `max_length`. -/
abbrev BoundedText (maxLength : Nat) :=
  { text : PyStr // text ≠ [] ∧ text.length ≤ maxLength }

/-- A field that is a `BoundedText`. A `str` with a surrogate in it is not valid. -/
def boundedText (maxLength : Nat) : PyValue → Option (BoundedText maxLength)
  | .str text =>
    if h : wellFormed text = true ∧ text ≠ [] ∧ text.length ≤ maxLength then some ⟨text, h.2⟩
    else none
  | _ => none

/-- A field that is a `uuid.UUID | None`, with default `None`. -/
def optionalUuid (uuid : PyStr → Option Uuid) : Option PyValue → Option (Option Uuid)
  | none => some none
  | some .none => some none
  | some (.str text) => if wellFormed text then (uuid text).map some else none
  | _ => none

/-- `extra="forbid"`. -/
def onlyFields (names : List String) (entries : List (PyKey × PyValue)) : Bool :=
  entries.all fun entry => names.any fun name => entry.1 = .str (lit name)

def MAX_MESSAGE_LENGTH : Nat := 8000

/-- The body of `POST /assistant/messages`. -/
structure AssistantMessageRequest where
  message : BoundedText MAX_MESSAGE_LENGTH
  conversationId : Option Uuid

def AssistantMessageRequest.validate (uuid : PyStr → Option Uuid) :
    PyValue → Option AssistantMessageRequest
  | .dict entries =>
    if onlyFields ["message", "conversation_id"] entries then do
      let message ← (dictLookup entries (.str (lit "message"))).bind
        (boundedText MAX_MESSAGE_LENGTH)
      let conversationId ← optionalUuid uuid (dictLookup entries (.str (lit "conversation_id")))
      some { message, conversationId }
    else none
  | _ => none

end NexaAssist
