import NexaAssist.Core.Errors
import NexaAssist.Schemas.Types

/-!
# Language-model calls

Prompts, what a provider answers to each schema the pipeline asks for, and the errors
it raises. A provider is a function of every prompt it has been sent in the request, the
last of which it answers.
-/

namespace NexaAssist

open PyJson

/-- One system instruction and one user turn. -/
structure LLMPrompt where
  system : PyStr
  user : PyStr
  deriving DecidableEq

/-- An `LLMError`: the application error it is. -/
structure LLMError where
  error : AppError

/-- The language-model request could not be completed. -/
def llmError : LLMError where
  error := {
    statusCode := 500
    code := "llm_error"
    message := lit "The language model request could not be completed."
    details := [] }

/-- `complete_structured` for each schema, and `stream_text`: the deltas, and the error
    that ends them early, if one does. -/
structure LLMProvider where
  intentAnalysis : List LLMPrompt → LLMPrompt → Except LLMError IntentAnalysis
  groundedModelAnswer : List LLMPrompt → LLMPrompt → Except LLMError GroundedModelAnswer
  agentDecision : List LLMPrompt → LLMPrompt → Except LLMError AgentDecision
  streamText : LLMPrompt → List PyStr × Option LLMError

/-- A provider that cannot be reached. -/
def LLMProvider.unavailable : LLMProvider where
  intentAnalysis _ _ := .error llmError
  groundedModelAnswer _ _ := .error llmError
  agentDecision _ _ := .error llmError
  streamText _ := ([], some llmError)

/-! ## Prompts -/

def INTENT_SYSTEM_PROMPT : PyStr :=
  lit "You classify a single customer support message into one intent category.

Categories:
- billing: payments, invoices, refunds, charges, subscriptions, pricing
- technical_support: something is broken, failing, or not working as expected
- account: sign-in, profile, permissions, account settings, cancellation
- product_question: how the product works, what it can do, availability
- complaint: dissatisfaction with the product, service, or an interaction
- other: the message fits none of the categories above

Rules:
- Choose exactly one category.
- Use \"other\" whenever no category clearly fits. Do not force a fit.
- confidence is your own confidence in the classification, from 0.0 to 1.0.
- reason is one short sentence, at most 280 characters, explaining the choice.
- Return only the structured output the schema defines.
"

def GROUNDED_ANSWER_SYSTEM_PROMPT : PyStr :=
  lit "You answer a customer question using only the numbered sources provided.

Rules:
- Use only the sources. Do not add facts from your own knowledge.
- If the sources do not contain the answer, say so plainly and set answered to false.
- cite the numbers of every source you actually used, and no others.
- answer is a short, direct reply to the question.
- Return only the structured output the schema defines.
"

def AGENT_SYSTEM_PROMPT : PyStr :=
  lit "You are a customer support assistant deciding what to do next.

You may either call one tool or give a final answer.

Rules:
- Call a tool when you still need information you do not have.
- Give a final answer as soon as you can answer from what you already know.
- Use only the tools listed. Their parameters are described by JSON Schema.
- If the tools cannot answer the question, say so in the final answer rather
  than guessing.
- Never invent tool results.
- Return only the structured output the schema defines.
"

def REALTIME_REPLY_SYSTEM_PROMPT : PyStr :=
  lit "You are a customer support assistant replying in a live chat.

Rules:
- Answer in plain prose. The reply is streamed to a person as you write it.
- Be brief: a few sentences at most.
- Answer only what was asked.
- If you do not know, say so plainly rather than guessing.
- Do not promise refunds, credits, or any other commitment on the company's behalf.
"

end NexaAssist
