import Mathlib.Data.Rat.Defs
import NexaAssist.ForStd.PyJson
import NexaAssist.ForStd.PyText

/-!
# The values requests and replies are made of

The types that pass between the layers of the answering pipeline. A field the source
bounds is a subtype, so a value that breaks the bound cannot be built.
-/

namespace NexaAssist

open PyJson

/-- A `str` with `min_length=1`. -/
abbrev Text := { text : PyStr // text ≠ [] }

/-- A literal of the source. -/
def lit (text : String) : PyStr := .ofString text

/-- A `float` between 0 and 1. -/
abbrev Share := { share : Rat // 0 ≤ share ∧ share ≤ 1 }

/-- The nearest value between 0 and 1. -/
def Share.clamp (x : Rat) : Share :=
  if h₀ : x < 0 then ⟨0, by decide, by decide⟩
  else if h₁ : 1 < x then ⟨1, by decide, by decide⟩
  else ⟨x, Rat.not_lt.mp h₀, Rat.not_lt.mp h₁⟩

/-! ## Identifiers -/

instance instNeZeroHexDigit : NeZero 16 := ⟨Nat.succ_ne_zero _⟩

/-- A UUID, as its 32 hexadecimal digits. -/
structure Uuid where
  digits : List (Fin 16)
  length_eq : digits.length = 32
  deriving DecidableEq

namespace Uuid

/-- The identifier of one digit. -/
def repeated (d : Fin 16) : Uuid := ⟨List.replicate 32 d, List.length_replicate⟩

/-- A digit in lower case. -/
def hexChar (d : Fin 16) : CodePoint :=
  Fin.ofNat 0x110000 (if d.val < 10 then 0x30 + d.val else 0x57 + d.val)

/-- `str(uuid)`. -/
def str (id : Uuid) : PyStr :=
  let hex := id.digits.map hexChar
  hex.take 8 ++ lit "-" ++ (hex.drop 8).take 4 ++ lit "-" ++ (hex.drop 12).take 4 ++ lit "-" ++
    (hex.drop 16).take 4 ++ lit "-" ++ hex.drop 20

/-- The order of UUIDs, which is that of their bytes. -/
def le (a b : Uuid) : Bool :=
  a.digits.foldl (fun n d => 16 * n + d.val) 0 ≤ b.digits.foldl (fun n d => 16 * n + d.val) 0

end Uuid

/-! ## Classification -/

inductive IntentCategory
  | billing
  | technicalSupport
  | account
  | productQuestion
  | complaint
  | other
  deriving DecidableEq, Repr

def IntentCategory.value : IntentCategory → PyStr
  | .billing => lit "billing"
  | .technicalSupport => lit "technical_support"
  | .account => lit "account"
  | .productQuestion => lit "product_question"
  | .complaint => lit "complaint"
  | .other => lit "other"

/-- The model's classification of one message. -/
structure IntentAnalysis where
  intent : IntentCategory
  confidence : Share
  reason : { text : PyStr // text ≠ [] ∧ text.length ≤ 280 }

/-! ## Answers and their sources -/

/-- Where one retrieved span comes from. -/
structure Citation where
  documentId : Uuid
  documentTitle : PyStr
  ordinal : Nat
  excerpt : PyStr
  similarity : Share
  deriving DecidableEq

/-- A text of at most 2000 characters, and at least one. -/
abbrev AnswerText := { text : PyStr // text ≠ [] ∧ text.length ≤ 2000 }

/-- What the model returns for a question with sources. -/
structure GroundedModelAnswer where
  answered : Bool
  answer : AnswerText
  citedSources : List Int

structure GroundedAnswer where
  answered : Bool
  answer : AnswerText
  citations : List Citation

/-- What the model wants to do next. -/
structure AgentDecision where
  tool : Option PyStr
  toolParams : List (PyStr × PyValue)
  finalAnswer : Option PyStr

/-! ## Frames -/

/-- What the server sends while it answers on a socket. -/
inductive ServerMessage
  | delta (text : PyStr)
  | complete (text : PyStr) (deltas : Nat) (conversationId : Option Uuid) (grounded : Bool)
      (citations : List Citation) (escalated : Bool)
  | error (code message : PyStr)
  deriving DecidableEq

/-! ## Records -/

inductive MessageRole
  | customer
  | assistant
  deriving DecidableEq, Repr

inductive TicketStatus
  | opened
  | pending
  | resolved
  | closed
  deriving DecidableEq, Repr

def TicketStatus.value : TicketStatus → PyStr
  | .opened => lit "open"
  | .pending => lit "pending"
  | .resolved => lit "resolved"
  | .closed => lit "closed"

def TicketStatus.all : List TicketStatus := [.opened, .pending, .resolved, .closed]

/-- `TicketStatus(value)`. -/
def TicketStatus.ofValue (value : PyStr) : Option TicketStatus :=
  TicketStatus.all.find? fun status => status.value = value

end NexaAssist
