import NexaAssist.Escalation.Handoff
import NexaAssist.Routing.Factory

/-!
# The answering pipeline

Classify, route (policy runs inside), consider escalation on the reply policy approved.
Where a conversation is given, the customer's turn is recorded before and the reply after.
-/

namespace NexaAssist

open PyJson

/-- `IntentService.analyze`. -/
def IntentService.analyze (message : Text) : App IntentAnalysis :=
  App.complete LLMProvider.intentAnalysis { system := INTENT_SYSTEM_PROMPT, user := message.val }

/-- What the pipeline decided, and what it will say. -/
structure AssistantReply where
  reply : Text
  intent : IntentCategory
  confidence : Share
  handler : PyStr
  routeReason : RouteReason
  fallback : Bool
  handled : Bool
  policyRule : Option PyStr
  policyModified : Bool
  escalated : Bool
  escalationReasons : List EscalationReason
  reviewId : Option Uuid
  conversationId : Option Uuid
  citations : List Citation

/-- Runs one message through the whole pipeline. -/
structure AssistantService where
  router : IntentRouter
  /-- The bound of the escalation criteria. -/
  minConfidence : Rat

namespace AssistantService

/-- The shipped wiring, over the two handlers: the router and the criteria share one bound. -/
def ofHandlers (knowledgeBase agent : HandlerRequest → App HandlerResponse) (word : WordTable)
    (minConfidence : Rat) : AssistantService where
  router := buildRouter knowledgeBase agent word minConfidence
  minConfidence := minConfidence

/-- `_record`, where a conversation was given. -/
def record (conversationId : Option Uuid) (role : MessageRole) (content : PyStr)
    (scope : Option OwnerScope) (citations : List Citation) : App Unit :=
  match conversationId with
  | none => pure ()
  | some conversationId => do
    let _ ← ConversationService.append conversationId role content citations scope
    pure ()

/-- The value `respond` returns. -/
def assemble (conversationId : Option Uuid) (routed : RoutedReply) (handoff : HandoffResult) :
    AssistantReply where
  reply := handoff.reply
  conversationId := conversationId
  intent := routed.decision.intent
  confidence := routed.decision.confidence
  handler := routed.decision.handler
  routeReason := routed.decision.reason
  fallback := routed.decision.fallback
  handled := routed.handled
  policyRule := routed.policyRule
  policyModified := routed.policyModified
  escalated := handoff.escalated
  escalationReasons := handoff.reasons
  reviewId := handoff.reviewId
  citations := routed.citations

/-- What `respond` does with a classified message, up to recording the reply. -/
def process (service : AssistantService) (message : Text) (analysis : IntentAnalysis) :
    App (RoutedReply × HandoffResult) := do
  let routed ← service.router.route message analysis
  let handoff ← HandoffService.consider service.minConfidence message routed none
  pure (routed, handoff)

/-- Classify, route, and decide whether a person is needed. -/
def respond (service : AssistantService) (message : Text) (conversationId : Option Uuid)
    (scope : Option OwnerScope) : App AssistantReply := do
  record conversationId .customer message.val scope []
  let analysis ← IntentService.analyze message
  let (routed, handoff) ← service.process message analysis
  record conversationId .assistant handoff.reply.val scope routed.citations
  pure (assemble conversationId routed handoff)

end AssistantService

end NexaAssist
