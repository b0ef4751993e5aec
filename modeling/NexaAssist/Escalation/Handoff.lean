import NexaAssist.Routing.Router
import NexaAssist.Services.Records

/-!
# Handing a request to a person

When a request needs a person, and queueing it. A failure to queue it does not fail the
request.
-/

namespace NexaAssist

open PyJson

/-! ## Criteria -/

/-- The facts the criteria consider. -/
structure EscalationContext where
  message : Text
  analysis : IntentAnalysis
  handled : Bool
  policyModified : Bool
  policyRule : Option PyStr

/-- Whether a person is needed, and why. -/
structure EscalationVerdict where
  escalate : Bool
  reasons : List EscalationReason

namespace EscalationVerdict

/-- The first reason, used when one label is needed. -/
def primary (verdict : EscalationVerdict) : Option EscalationReason := verdict.reasons.head?

end EscalationVerdict

namespace EscalationCriteria

/-- The reasons there are, in order. -/
def reasons (minConfidence : Rat) (context : EscalationContext) : List EscalationReason :=
  (if !context.handled then [.unresolved] else []) ++
    (if context.analysis.intent = .complaint then [.complaint] else []) ++
    (if context.analysis.intent = .other then [.uncategorised]
      -- Only meaningful for a real category.
      else if context.analysis.confidence.val < minConfidence then [.lowConfidence]
      else []) ++
    (if context.policyModified then [.policy] else [])

def evaluate (minConfidence : Rat) (context : EscalationContext) : EscalationVerdict :=
  let reasons := reasons minConfidence context
  { escalate := !reasons.isEmpty, reasons }

end EscalationCriteria

/-! ## The handoff -/

def HANDOFF_NOTICE : PyStr := lit " A support agent will follow up with you."

/-- What happened to a routed reply once escalation was considered. -/
structure HandoffResult where
  reply : Text
  escalated : Bool
  reasons : List EscalationReason
  reviewId : Option Uuid
  queued : Bool

namespace HandoffService

/-- `_with_notice`: tell the customer a person is involved, without repeating it. -/
def withNotice (reply : Text) : Text :=
  if PyStr.isIn (lit "support agent") (reply.val.map lowerAscii) then reply
  else ⟨reply.val.rstrip ++ HANDOFF_NOTICE, by simp [HANDOFF_NOTICE, lit, PyStr.ofString]⟩

/-- `_analysis_of`. -/
def analysisOf (routed : RoutedReply) : IntentAnalysis where
  intent := routed.decision.intent
  confidence := routed.decision.confidence
  reason := ⟨lit "routed", by decide⟩

/-- What the criteria are asked about. -/
def escalationOf (message : Text) (routed : RoutedReply) : EscalationContext where
  message := message
  analysis := analysisOf routed
  handled := routed.handled
  policyModified := routed.policyModified
  policyRule := routed.policyRule

/-- `_record`. -/
def record (message : Text) (routed : RoutedReply) (reason : Option EscalationReason)
    (ticketId : Option Uuid) : App (Option Uuid × Bool) :=
  tryCatch
    (do
      let item ← App.onBehalfOf .handoff
        (ReviewQueue.enqueue message.val routed.decision.intent (reason.getD .unresolved)
          (some routed.reply.val) ticketId)
      pure (some item.id, true))
    fun
    | .sqlalchemy => pure (none, false)
    | raised => throw raised

/-- Escalate if the criteria call for it, and tell the customer. -/
def consider (minConfidence : Rat) (message : Text) (routed : RoutedReply)
    (ticketId : Option Uuid) : App HandoffResult := do
  let verdict := EscalationCriteria.evaluate minConfidence (escalationOf message routed)
  if !verdict.escalate then
    pure {
      reply := routed.reply, escalated := false, reasons := [], reviewId := none, queued := false }
  else
    let (reviewId, queued) ← record message routed verdict.primary ticketId
    pure {
      reply := withNotice routed.reply
      escalated := true
      reasons := verdict.reasons
      reviewId, queued }

end HandoffService

end NexaAssist
