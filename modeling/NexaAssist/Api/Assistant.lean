import NexaAssist.Realtime.Answers
import NexaAssist.Routing.IntentHandlers

/-!
# The assistant endpoint

The pipeline as it is assembled for one request, and the endpoint over it. A socket
assembles the same one for each question.
-/

namespace NexaAssist

open PyJson

/-- `budget_from_settings`. -/
def budgetFromSettings (settings : Settings) : AgentBudget where
  maxSteps := settings.agentMaxSteps
  maxToolCalls := settings.agentMaxToolCalls

/-- `get_assistant_service`. -/
def getAssistantService (settings : Settings) (word : WordTable) : AssistantService :=
  .ofHandlers (KnowledgeBaseHandler.handle settings.retrievalTopK)
    (AgentHandler.handle (buildAgent (budgetFromSettings settings))) word
    settings.routingMinConfidence

/-- `POST /assistant/messages`: the session is the request's, and is closed with it. -/
def answerMessage (message : Text) (conversationId : Option Uuid) (scope : Option OwnerScope) :
    App AssistantReply := do
  let env ← Effect.ask
  App.inNewSession
    ((getAssistantService env.settings env.text.word).respond message conversationId scope)

/-- The streamer of a connection that was given a recorder and an answerer, or was not. -/
def connectionStreamer (env : Env) (scope : Option OwnerScope) (recorder answerer busy : Bool) :
    AnswerStreamer where
  service := getAssistantService env.settings env.text.word
  scope := scope
  recorder := recorder
  answerer := answerer
  busy := busy

end NexaAssist
