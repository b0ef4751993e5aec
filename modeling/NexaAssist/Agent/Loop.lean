import NexaAssist.Agent.State
import NexaAssist.Tools.Domain

/-!
# The agent loop

Decide, act, observe, repeat. Whatever fails ends the run with an answer, or becomes an
observation the model sees on its next turn.
-/

namespace NexaAssist

open PyJson

def BUDGET_ANSWER : Text :=
  ⟨lit "I could not finish looking into that within the allowed number of steps.", by decide⟩

def PROVIDER_ANSWER : Text :=
  ⟨lit "I could not complete that request because a service was unavailable.", by decide⟩

/-- The result of a whole run. -/
structure AgentOutcome where
  question : PyStr
  answer : Text
  completed : Bool
  steps : List TranscriptEntry
  toolCalls : Nat
  stopReason : PyStr

/-- Runs one question to an answer, bounded and recorded. `execute` is the executor's. -/
structure AgentLoop where
  registry : ToolRegistry
  execute : PyStr → List (PyStr × PyValue) → App ToolResult
  budget : AgentBudget

namespace AgentLoop

variable (agent : AgentLoop)

/-- What the model is shown of a tool call that was made. -/
def observation (text : TextTables) (step : AgentStep) : Option PyStr :=
  step.result.map fun result =>
    lit "[" ++ lit (toString step.index) ++ lit "] " ++ step.tool.getD (lit "None") ++
      lit " -> " ++ result.outcome.value ++ lit ": " ++
      if result.outcome = .ok then strValue text.printable text.floatRepr result.output
      else result.error.getD (lit "None")

/-- How much may still be spent, as the model is told. -/
def allowance (state : AgentState) : PyStr :=
  lit "Steps remaining: " ++ lit (toString state.remainingSteps) ++ lit ". Tool calls remaining: " ++
    lit (toString state.remainingToolCalls) ++ lit "."

/-- `_render`. -/
def render (text : TextTables) (state : AgentState) : PyStr :=
  let observations := PyStr.join (lit "\n") (state.steps.filterMap (observation text))
  PyStr.join (lit "\n\n")
    ([lit "Tools:\n" ++ agent.registry.describeAll text] ++
      (if observations = [] then []
        else [lit "What you have already learned:\n" ++ observations]) ++
      [lit "Question: " ++ state.question, allowance state])

/-- The prompt of a step. -/
def prompt (text : TextTables) (state : AgentState) : LLMPrompt where
  system := AGENT_SYSTEM_PROMPT
  user := agent.render text state

/-- `_decide`. -/
def decide (state : AgentState) : App AgentDecision := do
  let env ← Effect.ask
  App.complete LLMProvider.agentDecision (agent.prompt env.text state)

/-- `_finish`. -/
def finish (state : AgentState) (answer : Text) (completed : Bool) (stopReason : PyStr) :
    AgentOutcome where
  question := state.question
  answer := answer
  completed := completed
  steps := state.transcript
  toolCalls := state.toolCalls
  stopReason := stopReason

/-- `final_answer or BUDGET_ANSWER`. -/
def answerOr : Option PyStr → Text
  | none => BUDGET_ANSWER
  | some answer => if h : answer ≠ [] then ⟨answer, h⟩ else BUDGET_ANSWER

/-- The loop of `run`. -/
def loop (state : AgentState) : App AgentOutcome :=
  match _h : state.exhausted with
  | some reason => pure (finish state BUDGET_ANSWER false reason)
  | none => do
    -- A run that cannot think is over.
    let decision ← tryCatch (some <$> agent.decide state) fun
      | .llm _ => pure none
      | raised => throw raised
    match decision with
    | none => pure (finish state PROVIDER_ANSWER false (lit "provider_unavailable"))
    | some decision =>
      match decision.tool with
      | none =>
        pure (finish state.recordAnswer (answerOr decision.finalAnswer) true (lit "answered"))
      | some tool => do
        let result ← agent.execute tool decision.toolParams
        loop (state.recordToolCall tool result)
  termination_by state.remainingSteps
  decreasing_by exact state.recordToolCall_remainingSteps (by assumption) tool result

def run (question : PyStr) : App AgentOutcome :=
  agent.loop { question, budget := agent.budget, steps := [] }

/-! ## One turn of the loop -/

section Turns

variable {agent} {state : AgentState} {env : Env} {w w₁ w₂ : RequestState}

/-- `loop` ends with `BUDGET_ANSWER` where the budget is spent. -/
theorem loop_of_exhausted {reason : PyStr} (h : state.exhausted = some reason) :
    agent.loop state = pure (finish state BUDGET_ANSWER false reason) := by
  rw [loop]
  split
  · rename_i reason' hreason
    rw [hreason] at h
    rw [Option.some.inj h]
  · rename_i hnone
    rw [hnone] at h
    exact nomatch h

variable (agent state) in
/-- Deciding shows the model the prompt of the step, and does nothing else. -/
theorem decide_run (env : Env) (w : RequestState) :
    agent.decide state env w =
      (match env.provider.agentDecision w.prompts (agent.prompt env.text state) with
        | .ok decision => .ok decision
        | .error error => .error (.llm error),
        w.sendPrompt (agent.prompt env.text state)) := by
  unfold decide
  rw [Effect.bind_of_ok (Effect.ask_run env w)]
  unfold App.complete
  cases env.provider.agentDecision w.prompts (agent.prompt env.text state) <;> rfl

/-- `loop` takes a turn where the budget is not spent: it decides, and ends or calls a tool. -/
theorem loop_of_going (h : state.exhausted = none) :
    agent.loop state = (do
      let decision ← tryCatch (some <$> agent.decide state) fun
        | .llm _ => pure none
        | raised => throw raised
      match decision with
      | none => pure (finish state PROVIDER_ANSWER false (lit "provider_unavailable"))
      | some decision =>
        match decision.tool with
        | none =>
          pure (finish state.recordAnswer (answerOr decision.finalAnswer) true (lit "answered"))
        | some tool => do
          let result ← agent.execute tool decision.toolParams
          agent.loop (state.recordToolCall tool result) : App AgentOutcome) := by
  rw [loop]
  split
  · rename_i reason hreason
    rw [hreason] at h
    exact nomatch h
  · rfl

/-- `loop` ends with `PROVIDER_ANSWER` where `decide` fails. -/
theorem loop_of_failed {error : LLMError} (hgo : state.exhausted = none)
    (hdecide : agent.decide state env w = (.error (.llm error), w₁)) :
    agent.loop state env w =
      (.ok (finish state PROVIDER_ANSWER false (lit "provider_unavailable")), w₁) := by
  have hmap : (some <$> agent.decide state) env w = (.error (.llm error), w₁) :=
    Effect.bind_of_error hdecide
  rw [loop_of_going hgo, Effect.bind_of_ok (Effect.tryCatch_of_error hmap)]
  rfl

/-- `loop` acts on what `decide` returns: an answer ends the run, a tool call goes before the next
    turn. -/
theorem loop_of_decided {decision : AgentDecision} (hgo : state.exhausted = none)
    (hdecide : agent.decide state env w = (.ok decision, w₁)) :
    agent.loop state env w =
      match decision.tool with
      | none => (.ok (finish state.recordAnswer (answerOr decision.finalAnswer) true
          (lit "answered")), w₁)
      | some tool =>
        (do
          let result ← agent.execute tool decision.toolParams
          agent.loop (state.recordToolCall tool result) : App AgentOutcome) env w₁ := by
  have hmap : (some <$> agent.decide state) env w = (.ok (some decision), w₁) :=
    (Effect.bind_of_ok hdecide).trans rfl
  rw [loop_of_going hgo, Effect.bind_of_ok (Effect.tryCatch_of_ok hmap)]
  dsimp only
  cases decision.tool <;> rfl

/-- `loop` goes on from `recordToolCall` where a tool was called. -/
theorem loop_of_called {decision : AgentDecision} {tool : PyStr} {result : ToolResult}
    (hgo : state.exhausted = none) (hdecide : agent.decide state env w = (.ok decision, w₁))
    (htool : decision.tool = some tool)
    (hexecute : agent.execute tool decision.toolParams env w₁ = (.ok result, w₂)) :
    agent.loop state env w = agent.loop (state.recordToolCall tool result) env w₂ := by
  rw [loop_of_decided hgo hdecide, htool]
  exact Effect.bind_of_ok hexecute

end Turns

end AgentLoop

/-- `build_agent`. -/
def buildAgent (budget : AgentBudget) : AgentLoop where
  registry := toolRegistry
  execute := ToolExecutor.execute toolRegistry
  budget := budget

end NexaAssist
