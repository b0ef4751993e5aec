import Mathlib.Data.List.Lex
import Mathlib.Data.List.Sort
import Mathlib.Order.Fin.Basic
import NexaAssist.Db.Session
import NexaAssist.ForStd.PyRepr

/-!
# Running tools

A tool is a named operation over validated parameters. The executor turns whatever
happens to a call into a result, for a model cannot catch anything. How long a call may
take is left to `Tools/Boundary`.
-/

namespace NexaAssist

open PyJson

/-! ## Results -/

/-- How an invocation ended. -/
inductive ToolOutcome
  | ok
  | invalidParams
  | failed
  | timeout
  | notFound
  deriving DecidableEq, Repr

def ToolOutcome.value : ToolOutcome → PyStr
  | .ok => lit "ok"
  | .invalidParams => lit "invalid_params"
  | .failed => lit "failed"
  | .timeout => lit "timeout"
  | .notFound => lit "not_found"

/-- The outcome of one tool call. -/
structure ToolResult where
  tool : PyStr
  outcome : ToolOutcome
  output : PyValue
  error : Option PyStr
  retryable : Bool

namespace ToolResult

def success (tool : PyStr) (output : PyValue) : ToolResult where
  tool := tool
  outcome := .ok
  output := output
  error := none
  retryable := false

def failure (tool : PyStr) (outcome : ToolOutcome) (error : PyStr) (retryable : Bool) :
    ToolResult where
  tool := tool
  outcome := outcome
  output := .none
  error := some error
  retryable := retryable

end ToolResult

/-! ## Tools -/

/-- A callable capability. `invoke` validates parameters against the tool's schema, and
    is then what the tool does with them. -/
structure Tool where
  name : PyStr
  description : PyStr
  invoke : ParamParsers → List (PyStr × PyValue) → Except (List ParamError) (App PyValue)

def MAX_NAME_LENGTH : Nat := 64

/-- `_ALLOWED_NAME`. -/
def ALLOWED_NAME : PyStr := lit "abcdefghijklmnopqrstuvwxyz0123456789_"

/-- Whether `register` takes a name. -/
def validToolName (name : PyStr) : Bool :=
  !name.isEmpty && name.all (ALLOWED_NAME.contains ·) && name.length ≤ MAX_NAME_LENGTH

/-- Name-to-tool mapping. `register` takes no tool with a malformed name, without a
    description, or of a name that is taken. -/
structure ToolRegistry where
  tools : List Tool
  named : ∀ tool ∈ tools, validToolName tool.name = true
  described : ∀ tool ∈ tools, tool.description ≠ []
  distinct : (tools.map (·.name)).Nodup

namespace ToolRegistry

variable (registry : ToolRegistry)

def get (name : PyStr) : Option Tool := registry.tools.find? fun tool => tool.name = name

/-- Registered tools, by name, so that listings are stable. -/
def sorted : List Tool := registry.tools.insertionSort fun a b => a.name ≤ b.name

/-- Every tool's public description, one after the other. -/
def describeAll (text : TextTables) : PyStr :=
  PyStr.join (lit "\n") (registry.sorted.map fun tool =>
    lit "- " ++ tool.name ++ lit ": " ++ tool.description ++ lit "\n  parameters: " ++
      text.parametersSchema tool.name)

end ToolRegistry

/-! ## The executor -/

def UNEXPECTED_ERROR : PyStr := lit "The tool failed unexpectedly."

/-- `_describe_validation`: field paths and messages only. -/
def describeValidation (errors : List ParamError) : PyStr :=
  lit "Invalid parameters — " ++ PyStr.join (lit "; ") (errors.map fun error =>
    let path := PyStr.join (lit ".") error.loc
    (if path = [] then lit "body" else path) ++ lit ": " ++ error.msg)

namespace ToolExecutor

/-- `_run`: no exception escapes. -/
def run (tool : Tool) (call : App PyValue) : App ToolResult :=
  tryCatch
    (do
      let output ← App.onBehalfOf .tool call
      pure (.success tool.name output))
    fun
    | .tool message retryable => pure (.failure tool.name .failed message retryable)
    | _ => pure (.failure tool.name .failed UNEXPECTED_ERROR false)

/-- Run the tool of a name with parameters, returning a result whatever happens. -/
def execute (registry : ToolRegistry) (name : PyStr) (params : List (PyStr × PyValue)) :
    App ToolResult := do
  let env ← Effect.ask
  match registry.get name with
  | none =>
    pure (.failure name .notFound
      (lit "No tool named " ++ reprStr env.text.printable name ++ lit " is available.") false)
  | some tool =>
    match tool.invoke env.parse params with
    | .error errors => pure (.failure name .invalidParams (describeValidation errors) false)
    | .ok call => run tool call

variable {registry : ToolRegistry} {name : PyStr} {params : List (PyStr × PyValue)} {tool : Tool}
  {env : Env}

/-- `execute` reports a tool that is not registered, and changes nothing. -/
theorem execute_of_missing (h : registry.get name = none) (w : RequestState) :
    execute registry name params env w =
      (.ok (.failure name .notFound (lit "No tool named " ++ reprStr env.text.printable name ++
        lit " is available.") false), w) := by
  unfold execute
  rw [Effect.bind_of_ok (Effect.ask_run env w), h]
  rfl

/-- `execute` reports parameters that are refused, and runs nothing. -/
theorem execute_of_invalid {errors : List ParamError} (h : registry.get name = some tool)
    (hinvoke : tool.invoke env.parse params = .error errors) (w : RequestState) :
    execute registry name params env w =
      (.ok (.failure name .invalidParams (describeValidation errors) false), w) := by
  unfold execute
  rw [Effect.bind_of_ok (Effect.ask_run env w), h]
  simp only [hinvoke]
  rfl

/-- `execute` runs a tool whose parameters are valid. -/
theorem execute_of_valid {call : App PyValue} (h : registry.get name = some tool)
    (hinvoke : tool.invoke env.parse params = .ok call) (w : RequestState) :
    execute registry name params env w = run tool call env w := by
  unfold execute
  rw [Effect.bind_of_ok (Effect.ask_run env w), h]
  simp only [hinvoke]

end ToolExecutor

end NexaAssist
