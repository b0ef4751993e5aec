import NexaAssist.Agent.Loop
import NexaAssist.Routing.Router

/-!
# The handlers messages are routed to

The knowledge base and the agent. A handler answers, or says plainly that it could not.
-/

namespace NexaAssist

open PyJson

/-- Answers from the documentation. -/
def KnowledgeBaseHandler.handle (topK : Nat) (request : HandlerRequest) : App HandlerResponse := do
  let answer ← AnswerService.answer request.message.val topK
  pure {
    handler := lit "knowledge_base"
    reply := ⟨answer.answer.val, answer.answer.property.1⟩
    handled := answer.answered
    citations := answer.citations }

namespace AgentHandler

/-- What is made of a run of the agent. -/
def responseOf (outcome : AgentOutcome) : HandlerResponse where
  handler := lit "agent"
  reply := outcome.answer
  handled := outcome.completed
  citations := []

/-- Runs the agent. -/
def handle (agent : AgentLoop) (request : HandlerRequest) : App HandlerResponse := do
  let outcome ← agent.run request.message.val
  pure (responseOf outcome)

end AgentHandler

end NexaAssist
