import NexaAssist.Tools.Boundary
import NexaAssist.Workflows.Definition

/-!
# Running a workflow

Step by step, with no model asked. A tool may behave differently each time it is called, so
there is an executor for each step that is run.
-/

namespace NexaAssist

open PyJson

/-- What one step did. -/
structure StepRecord where
  id : PyStr
  tool : PyStr
  outcome : ToolOutcome
  skipped : Bool
  error : Option PyStr
  deriving DecidableEq

/-- The outcome of a whole workflow. -/
structure WorkflowRun where
  workflow : PyStr
  completed : Bool
  steps : List StepRecord
  failedStep : Option PyStr

namespace WorkflowRunner

/-- `_resolve`. A reference to a step that did not produce output resolves to `None`. -/
def resolve (step : WorkflowStep) (outputs : PyDict PyStr PyValue) : PyDict PyStr PyValue :=
  step.params.map fun (key, value) =>
    match referencedStep value with
    | some source => (key, (PyDict.get source outputs).getD .none)
    | none => (key, value)

/-- The record of a step. -/
def record (step : WorkflowStep) (result : ToolResult) : StepRecord where
  id := step.id
  tool := step.tool
  outcome := result.outcome
  skipped := false
  error := result.error

/-- The locals of `run`. -/
structure Locals where
  outputs : PyDict PyStr PyValue
  records : List StepRecord
  failedStep : Option PyStr

/-- The loop of `run`. The executor of a step is that of its number. -/
def runSteps (executor : Nat → TimedExecutor) :
    List WorkflowStep → Locals → Except PyException Locals
  | [], s => .ok s
  | step :: rest, s => do
    let result ← (executor s.records.length).execute step.tool (some (resolve step s.outputs))
    let records := s.records ++ [record step result]
    if result.outcome = .ok then
      runSteps executor rest
        { s with outputs := PyDict.set step.id result.output s.outputs, records := records }
    -- Declared as skippable, so the run continues without its output.
    else if step.optional then runSteps executor rest { s with records := records }
    else pure { s with records := records, failedStep := some step.id }

/-- `_finish`. -/
def finish (workflow : Workflow) (s : Locals) : WorkflowRun where
  workflow := workflow.name
  completed := s.failedStep.isNone
  steps := s.records
  failedStep := s.failedStep

/-- Run a workflow: its summary, and each step's output. -/
def run (executor : Nat → TimedExecutor) (workflow : Workflow)
    (inputs : Option (PyDict PyStr PyValue)) :
    Except PyException (WorkflowRun × PyDict PyStr PyValue) := do
  let s ← runSteps executor workflow.steps
    { outputs := inputs.getD [], records := [], failedStep := none }
  pure (finish workflow s, s.outputs)

end WorkflowRunner

/-- The loop of `unresolved_references`. -/
def unresolvedFrom (produced missing : List PyStr) : List WorkflowStep → List PyStr
  | [] => missing
  | step :: rest =>
    unresolvedFrom (step.id :: produced)
      (missing ++ step.references.filter (· ∉ produced)) rest

/-- Declared inputs the caller has not supplied. -/
def unresolvedReferences (workflow : Workflow) (available : List PyStr) : List PyStr :=
  unresolvedFrom available [] workflow.steps

end NexaAssist
