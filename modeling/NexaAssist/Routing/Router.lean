import NexaAssist.Db.Session
import NexaAssist.Policy.Rules

/-!
# Choosing which handler serves a message

A message goes to the handler of its category, or to the fallback: when the category is
`other`, when the model was not confident enough, or when no handler is registered.
Policy runs after the handler, on what would be sent.
-/

namespace NexaAssist

open PyJson

/-! ## Handlers -/

/-- What a handler is given. -/
structure HandlerRequest where
  message : Text
  analysis : IntentAnalysis

/-- What a handler produces. -/
structure HandlerResponse where
  handler : PyStr
  reply : Text
  handled : Bool
  citations : List Citation

/-- Produces a reply for a classified message. -/
structure IntentHandler where
  name : PyStr
  handle : HandlerRequest → App HandlerResponse

/-- Which handler serves which intent. `register` takes no handler without a name, and
    none for an intent that has one. -/
structure HandlerRegistry where
  handlers : List (IntentCategory × IntentHandler)
  named : ∀ entry ∈ handlers, entry.2.name ≠ []
  distinct : (handlers.map (·.1)).Nodup

/-- The handler for `intent`, if there is one. -/
def HandlerRegistry.get (registry : HandlerRegistry) (intent : IntentCategory) :
    Option IntentHandler :=
  (registry.handlers.find? fun entry => entry.1 = intent).map (·.2)

/-! ## The decision -/

/-- Why a message went where it did. -/
inductive RouteReason
  | matched
  | noCategory
  | lowConfidence
  | noHandler
  deriving DecidableEq, Repr

/-- Which handler was chosen, and why. -/
structure RoutingDecision where
  intent : IntentCategory
  confidence : Share
  handler : PyStr
  reason : RouteReason
  fallback : Bool

/-- A handled message: the decision, and what is said. -/
structure RoutedReply where
  decision : RoutingDecision
  reply : Text
  handled : Bool
  policyRule : Option PyStr
  policyModified : Bool
  citations : List Citation

/-- Routes a classified message to a handler, or to the fallback. -/
structure IntentRouter where
  registry : HandlerRegistry
  fallback : IntentHandler
  minConfidence : Rat
  enforcer : Option PolicyEngine

namespace IntentRouter

variable (router : IntentRouter)

/-- `_to_fallback`. -/
def toFallback (analysis : IntentAnalysis) (reason : RouteReason) : RoutingDecision where
  intent := analysis.intent
  confidence := analysis.confidence
  handler := router.fallback.name
  reason := reason
  fallback := true

/-- `decide`: choose a handler without running it. -/
def choose (analysis : IntentAnalysis) : RoutingDecision :=
  if analysis.intent = .other then router.toFallback analysis .noCategory
  else if analysis.confidence.val < router.minConfidence then
    router.toFallback analysis .lowConfidence
  else
    match router.registry.get analysis.intent with
    | none => router.toFallback analysis .noHandler
    | some handler => {
        intent := analysis.intent
        confidence := analysis.confidence
        handler := handler.name
        reason := .matched
        fallback := false }

/-- The handler that is run. -/
def chosen (analysis : IntentAnalysis) : IntentHandler :=
  if (router.choose analysis).fallback then router.fallback
  else (router.registry.get analysis.intent).getD router.fallback

/-- What is made of a handler's response: the decision names the handler that answered,
    and policy has the last word. -/
def finish (message : Text) (analysis : IntentAnalysis) (response : HandlerResponse) :
    RoutedReply :=
  let decision := { router.choose analysis with handler := response.handler }
  match router.enforcer with
  | none => {
      decision
      reply := response.reply
      handled := response.handled
      policyRule := none
      policyModified := false
      citations := response.citations }
  | some engine =>
    let enforced := PolicyEnforcer.enforce engine message analysis response.reply response.handled
    { decision
      reply := enforced.reply
      handled := enforced.handled
      policyRule := some enforced.rule
      policyModified := enforced.modified
      -- Citations describe where specific text came from, not what replaced it.
      citations := if enforced.modified then [] else response.citations }

/-- Choose a handler and run it. -/
def route (message : Text) (analysis : IntentAnalysis) : App RoutedReply := do
  let response ← (router.chosen analysis).handle { message, analysis }
  pure (router.finish message analysis response)

end IntentRouter

end NexaAssist
