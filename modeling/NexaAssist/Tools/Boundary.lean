import NexaAssist.Core.Boundary
import NexaAssist.Tools.Execution

/-!
# Tools that may do anything

The executor over tools of which nothing is known. Where a tool validates as pydantic does
and takes no time, it is the executor that the agent uses.
-/

namespace NexaAssist

open PyJson

/-- A tool, as the executor meets it: what validating its parameters comes to and, where they
    are accepted, what running it does. -/
structure TimedTool where
  name : PyStr
  call : List (PyStr × PyValue) → Validation ParamError (TimedCall PyValue)

/-- An executor. `timeout` is `f"{timeout:g}"`. -/
structure TimedExecutor where
  registry : PyStr → Option TimedTool
  timeout : PyStr
  printable : CodePoint → Bool

namespace TimedExecutor

variable (executor : TimedExecutor)

/-- `_run`. -/
def run (tool : PyStr) : TimedCall PyValue → ToolResult
  | .returned output => .success tool output
  | .expired | .raised .timeoutError _ =>
    .failure tool .timeout (lit "The tool did not finish within " ++ executor.timeout ++ lit "s.")
      true
  | .raised (.declared message retryable) _ => .failure tool .failed message retryable
  | .raised (.other _) _ => .failure tool .failed UNEXPECTED_ERROR false

/-- `execute`. An exception that no stage catches goes through. -/
def execute (name : PyStr) (params : Option (List (PyStr × PyValue))) :
    Except PyException ToolResult :=
  match executor.registry name with
  | none => .ok (.failure name .notFound
      (lit "No tool named " ++ reprStr executor.printable name ++ lit " is available.") false)
  | some tool =>
    match tool.call (params.getD []) with
    | .invalid issues => .ok (.failure name .invalidParams (describeValidation issues) false)
    | .raised exception => .error exception
    | .accepted call => .ok (executor.run tool.name call)

end TimedExecutor

/-! ## The agent's tools -/

/-- How a call of a tool of the agent ends. -/
def timedCall (result : Except Raised PyValue) : TimedCall PyValue :=
  match result with
  | .ok output => .returned output
  | .error (.tool message retryable) => .raised (.declared message retryable) false
  | .error .sqlalchemy => .raised (.other "SQLAlchemyError") false
  | .error (.app _) => .raised (.other "AppError") false
  | .error (.llm _) => .raised (.other "LLMError") false

/-- A tool of the agent in a state of its request. -/
def Tool.timed (tool : Tool) (env : Env) (w : RequestState) : TimedTool where
  name := tool.name
  call params :=
    match tool.invoke env.parse params with
    | .error errors => .invalid errors
    | .ok call => .accepted (timedCall (App.onBehalfOf .tool call env w).1)

/-- The executor of a request. -/
def ToolRegistry.timed (registry : ToolRegistry) (timeout : PyStr) (env : Env)
    (w : RequestState) : TimedExecutor where
  registry name := (registry.get name).map fun tool => tool.timed env w
  timeout := timeout
  printable := env.text.printable

/-- `ToolExecutor.execute` gives the result of the timed registry over its tools. -/
theorem ToolExecutor.execute_timed (registry : ToolRegistry) (timeout name : PyStr)
    (params : List (PyStr × PyValue)) (env : Env) (w : RequestState) :
    ∃ result, (ToolExecutor.execute registry name params env w).1 = .ok result ∧
      (registry.timed timeout env w).execute name (some params) = .ok result := by
  unfold ToolExecutor.execute
  rw [Effect.bind_of_ok (Effect.ask_run env w)]
  simp only [TimedExecutor.execute, ToolRegistry.timed]
  cases registry.get name with
  | none => exact ⟨_, rfl, rfl⟩
  | some tool =>
    simp only [Option.map_some, Tool.timed, Option.getD_some]
    cases tool.invoke env.parse params with
    | error errors => exact ⟨_, rfl, rfl⟩
    | ok call =>
      simp only [ToolExecutor.run]
      cases hcall : App.onBehalfOf .tool call env w with
      | mk result w' =>
        cases result with
        | ok output =>
          rw [Effect.tryCatch_of_ok (Effect.bind_of_ok hcall)]
          exact ⟨_, rfl, rfl⟩
        | error raised =>
          rw [Effect.tryCatch_of_error (Effect.bind_of_error hcall)]
          cases raised <;> exact ⟨_, rfl, rfl⟩

end NexaAssist
