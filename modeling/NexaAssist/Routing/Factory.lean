import NexaAssist.Policy.Library
import NexaAssist.Routing.Router

/-!
# Wiring intents to handlers

The whole routing table, over a handler that asks the knowledge base and one that runs
the agent.
-/

namespace NexaAssist

open PyJson

def UNRESOLVED : Text :=
  ⟨lit "I could not find an answer to that in our documentation. A support agent can pick this up from here.",
    by decide⟩

/-- Where ambiguous, uncategorised and unmapped messages land. It does not guess. -/
def fallbackHandler : IntentHandler where
  name := lit "fallback"
  handle _ := pure {
    handler := lit "fallback", reply := UNRESOLVED, handled := false, citations := [] }

/-- Answer from the documentation when it can; otherwise hand on. -/
def documentedFirstHandler (documented otherwise : IntentHandler) : IntentHandler where
  name := documented.name ++ lit "+" ++ otherwise.name
  handle request := do
    let response ← documented.handle request
    if response.handled then pure response else otherwise.handle request

section Table

variable (knowledgeBase agent : HandlerRequest → App HandlerResponse)

def knowledgeBaseHandler : IntentHandler where
  name := lit "knowledge_base"
  handle := knowledgeBase

def agentHandler : IntentHandler where
  name := lit "agent"
  handle := agent

/-- The routing table. -/
def routingTable : HandlerRegistry where
  handlers := [
    -- Documented answers.
    (.productQuestion, knowledgeBaseHandler knowledgeBase),
    (.account, knowledgeBaseHandler knowledgeBase),
    -- The documentation is asked first and the agent gets what it cannot answer.
    (.billing, documentedFirstHandler (knowledgeBaseHandler knowledgeBase) (agentHandler agent)),
    -- Needs to inspect account state.
    (.technicalSupport, agentHandler agent),
    (.complaint, agentHandler agent),
    (.other, fallbackHandler)]
  named entry hentry := by
    have hnames : [lit "knowledge_base", lit "knowledge_base",
        lit "knowledge_base" ++ lit "+" ++ lit "agent", lit "agent", lit "agent",
        lit "fallback"].all (· ≠ []) = true := by decide
    have hname := List.all_eq_true.mp hnames entry.2.name
      (List.mem_map_of_mem (f := fun entry => entry.2.name) hentry)
    simpa using hname
  distinct := by
    show [IntentCategory.productQuestion, .account, .billing, .technicalSupport, .complaint,
      .other].Nodup
    decide

/-- Every category has a handler. -/
theorem routingTable_complete (intent : IntentCategory) :
    ((routingTable knowledgeBase agent).get intent).isSome = true := by
  cases intent <;> rfl

/-- `build_router`, over the two handlers. -/
def buildRouter (word : WordTable) (minConfidence : Rat) : IntentRouter where
  registry := routingTable knowledgeBase agent
  fallback := fallbackHandler
  minConfidence := minConfidence
  enforcer := some (defaultRules word)

end Table

end NexaAssist
