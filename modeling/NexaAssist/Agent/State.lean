import NexaAssist.Tools.Execution

/-!
# Agent state and step accounting

What an agent run has done so far, and what it may still do. Both limits are read off
the recorded steps. Durations and tokens are not modelled.
-/

namespace NexaAssist

open PyJson

/-- What a step did. -/
inductive StepKind
  | toolCall
  | answer
  deriving DecidableEq, Repr

def StepKind.value : StepKind → PyStr
  | .toolCall => lit "tool_call"
  | .answer => lit "answer"

/-- One recorded action in a run. -/
structure AgentStep where
  index : Nat
  kind : StepKind
  tool : Option PyStr
  result : Option ToolResult

/-- What a single run is allowed to spend. -/
structure AgentBudget where
  maxSteps : Nat
  maxToolCalls : Nat

/-- One step of a transcript, without what the tool returned. -/
structure TranscriptEntry where
  index : Nat
  kind : PyStr
  tool : Option PyStr
  outcome : Option PyStr

/-- Everything one run accumulates. -/
structure AgentState where
  question : PyStr
  budget : AgentBudget
  steps : List AgentStep

namespace AgentState

variable (state : AgentState)

def stepCount : Nat := state.steps.length

def toolCalls : Nat := (state.steps.filter fun step => step.kind = .toolCall).length

/-! ## Budget -/

def remainingSteps : Nat := state.budget.maxSteps - state.stepCount

def remainingToolCalls : Nat := state.budget.maxToolCalls - state.toolCalls

/-- Why the run must stop, or `none` if it may continue. -/
def exhausted : Option PyStr :=
  if state.remainingSteps = 0 then
    some (lit "step limit of " ++ lit (toString state.budget.maxSteps) ++ lit " reached")
  else if state.remainingToolCalls = 0 then
    some (lit "tool call limit of " ++ lit (toString state.budget.maxToolCalls) ++ lit " reached")
  else none

/-! ## Recording -/

/-- `_append`. -/
def append (step : AgentStep) : AgentState := { state with steps := state.steps ++ [step] }

def recordToolCall (tool : PyStr) (result : ToolResult) : AgentState :=
  state.append { index := state.stepCount, kind := .toolCall, tool := some tool, result := some result }

def recordAnswer : AgentState :=
  state.append { index := state.stepCount, kind := .answer, tool := none, result := none }

/-- A summary of the run. -/
def transcript : List TranscriptEntry :=
  state.steps.map fun step => {
    index := step.index
    kind := step.kind.value
    tool := step.tool
    outcome := step.result.map (·.outcome.value) }

/-! ## What recording changes -/

/-- `recordToolCall` leaves the question. -/
@[simp]
theorem recordToolCall_question (tool : PyStr) (result : ToolResult) :
    (state.recordToolCall tool result).question = state.question := rfl

/-- `recordToolCall` leaves the budget. -/
@[simp]
theorem recordToolCall_budget (tool : PyStr) (result : ToolResult) :
    (state.recordToolCall tool result).budget = state.budget := rfl

/-- `recordToolCall` puts a step for the call behind the others. -/
@[simp]
theorem recordToolCall_steps (tool : PyStr) (result : ToolResult) :
    (state.recordToolCall tool result).steps = state.steps ++ [{
      index := state.stepCount, kind := .toolCall, tool := some tool, result := some result }] :=
  rfl

/-- `recordToolCall` counts one step more. -/
@[simp]
theorem recordToolCall_stepCount (tool : PyStr) (result : ToolResult) :
    (state.recordToolCall tool result).stepCount = state.stepCount + 1 := by
  simp [stepCount]

/-- `recordToolCall` counts one tool call more. -/
@[simp]
theorem recordToolCall_toolCalls (tool : PyStr) (result : ToolResult) :
    (state.recordToolCall tool result).toolCalls = state.toolCalls + 1 := by
  simp [toolCalls]

/-- `recordAnswer` puts a step for the answer behind the others. -/
@[simp]
theorem recordAnswer_steps : state.recordAnswer.steps = state.steps ++ [{
    index := state.stepCount, kind := .answer, tool := none, result := none }] := rfl

/-- `recordAnswer` counts no tool call. -/
@[simp]
theorem recordAnswer_toolCalls : state.recordAnswer.toolCalls = state.toolCalls := by
  simp [toolCalls]

/-- A run may go on while it has steps and tool calls left. -/
theorem exhausted_eq_none_iff :
    state.exhausted = none ↔
      state.stepCount < state.budget.maxSteps ∧ state.toolCalls < state.budget.maxToolCalls := by
  unfold exhausted remainingSteps remainingToolCalls
  split
  · have hspent : ¬ state.stepCount < state.budget.maxSteps := by omega
    simp [hspent]
  · split
    · have hspent : ¬ state.toolCalls < state.budget.maxToolCalls := by omega
      simp [hspent]
    · simp only [true_iff]
      omega

/-- Every tool call uses up a step. -/
theorem recordToolCall_remainingSteps (h : state.exhausted = none) (tool : PyStr)
    (result : ToolResult) :
    (state.recordToolCall tool result).remainingSteps < state.remainingSteps := by
  have hleft := (state.exhausted_eq_none_iff.mp h).1
  show state.budget.maxSteps - (state.recordToolCall tool result).stepCount <
    state.budget.maxSteps - state.stepCount
  rw [recordToolCall_stepCount]
  omega

end AgentState

end NexaAssist
