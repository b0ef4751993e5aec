import NexaAssist.Observability.Metrics
import NexaAssist.Observability.Tracer
import NexaAssist.Tools.Boundary

/-!
# Tracing and accounting on the execution paths

Wrappers that record a span, and what they count, around the run of a tool.
-/

namespace NexaAssist

open PyJson

/-- What a task finds of the tracer and the metrics. `metrics` holds the calls that were made. -/
structure Observations where
  tracer : Tracer
  current : Option SpanRef
  metrics : List MetricsCall

/-- None yet. -/
def Observations.empty : Observations where
  tracer := .init
  current := none
  metrics := []

/-! ## Tools -/

/-- A run of a tool: how it ends, the spans and the metrics that it records of its own with the
    ids it draws for them, the exception that the recorder raises over its span, if any, and the
    readings of the clock. -/
structure ToolRun where
  ending : TimedCall PyValue
  spans : List Span
  calls : List MetricsCall
  drawn : Nat
  recorder : Option PyStr
  started : Rat
  entered : Rat
  finished : Rat
  left : Rat

/-- `type(exc).__name__`. -/
def PyException.className : PyException → PyStr
  | .timeoutError => lit "TimeoutError"
  | .declared .. => lit "ToolError"
  | .other name => lit name

/-- How a body ends that ends as a call does. A call past its deadline is cancelled, and
    `CancelledError` is no `Exception`. -/
def TimedCall.body {α : Type} : TimedCall α → Ending
  | .returned _ => .returned
  | .raised exception _ => .raised exception.className true
  | .expired => .raised (lit "CancelledError") false

/-- A recorder raises an exception, or returns. -/
def Ending.ofRecorder : Option PyStr → Ending
  | none => .returned
  | some name => .raised name true

namespace TracedTool

/-- The labels of a tool's duration. -/
def labels (tool : PyStr) : Labels where
  entries := [(lit "tool", .str tool)]
  distinct := List.nodup_singleton _

/-- The labels of a run. -/
def outcome (tool outcome : PyStr) : Labels where
  entries := [(lit "tool", .str tool), (lit "outcome", .str outcome)]
  distinct := (by decide : [lit "tool", lit "outcome"].Nodup)

def TOOL_RUNS_TOTAL : PyStr := lit "tool_runs_total"

/-- The calls of the metrics that `run` makes. -/
def count (tool : PyStr) (r : ToolRun) : List MetricsCall :=
  match r.ending with
  | .returned _ =>
    [.increment TOOL_RUNS_TOTAL (some (outcome tool (lit "ok"))) 1,
      .observe (lit "tool_duration_ms")
        (.finite (Rounding.nearest (Rounding.nearest (r.finished - r.started) * 1000)))
        (some (labels tool))]
  | .raised .. => [.increment TOOL_RUNS_TOTAL (some (outcome tool (lit "error"))) 1]
  -- No clause catches a cancellation.
  | .expired => []

/-- What a tool leaves of the observations, itself. -/
def own (r : ToolRun) (s : Observations) : Observations where
  tracer :=
    { s.tracer with
      nextId := s.tracer.nextId + r.drawn
      recorded := s.tracer.recorded ++ r.spans }
  current := s.current
  metrics := s.metrics ++ r.calls

/-- `run`. -/
def run (tool : PyStr) (r : ToolRun) (s : Observations) : TimedCall PyValue × Observations :=
  let (frame, tracer) :=
    s.tracer.enter s.current (lit "tool.run") .tool [(lit "tool", .str tool)] r.entered
  let inside := own r { s with tracer := tracer, current := some frame.handle.ref }
  let metrics := inside.metrics ++ count tool r
  let (_, tracer) := inside.tracer.exit frame r.ending.body (.ofRecorder r.recorder) r.left
  (r.ending, { tracer := tracer, current := frame.token, metrics := metrics })

end TracedTool

/-- A tool of `traced_registry`. -/
structure TracedTool where
  name : PyStr
  call : List (PyStr × PyValue) → Validation ParamError ToolRun

/-- A `ToolExecutor` over such tools. -/
structure TracedExecutor where
  registry : PyStr → Option TracedTool
  timeout : PyStr
  printable : CodePoint → Bool

def Validation.map {ι α β : Type} (f : α → β) : Validation ι α → Validation ι β
  | .accepted params => .accepted (f params)
  | .invalid issues => .invalid issues
  | .raised exception => .raised exception

namespace TracedExecutor

variable (executor : TracedExecutor)

/-- The executor over the tools that are wrapped. -/
def untraced : TimedExecutor where
  registry name := (executor.registry name).map fun tool =>
    { name := tool.name, call := fun params => (tool.call params).map ToolRun.ending }
  timeout := executor.timeout
  printable := executor.printable

/-- The run of a tool that an execution reaches. -/
def reached (name : PyStr) (params : Option (List (PyStr × PyValue))) :
    Option (PyStr × ToolRun) :=
  match executor.registry name with
  | none => none
  | some tool =>
    match tool.call (params.getD []) with
    | .accepted r => some (tool.name, r)
    | _ => none

/-- `execute`. -/
def execute (name : PyStr) (params : Option (List (PyStr × PyValue))) (s : Observations) :
    Except PyException ToolResult × Observations :=
  match executor.registry name with
  | none => (.ok (.failure name .notFound
      (lit "No tool named " ++ reprStr executor.printable name ++ lit " is available.") false), s)
  | some tool =>
    match tool.call (params.getD []) with
    | .invalid issues => (.ok (.failure name .invalidParams (describeValidation issues) false), s)
    | .raised exception => (.error exception, s)
    | .accepted r =>
      let (call, s) := TracedTool.run tool.name r s
      (.ok (executor.untraced.run tool.name call), s)

/-- Tracing changes no result. -/
theorem execute_untraced (name : PyStr) (params : Option (List (PyStr × PyValue)))
    (s : Observations) :
    (executor.execute name params s).1 = executor.untraced.execute name params := by
  unfold execute TimedExecutor.execute
  have hregistry : executor.untraced.registry name = (executor.registry name).map fun tool =>
      { name := tool.name, call := fun params => (tool.call params).map ToolRun.ending } := rfl
  rw [hregistry]
  cases executor.registry name with
  | none => rfl
  | some tool =>
    simp only [Option.map_some]
    cases tool.call (params.getD []) <;> rfl

/-- A traced execution observes the run that it reaches, if it reaches one. -/
theorem execute_observations (name : PyStr) (params : Option (List (PyStr × PyValue)))
    (s : Observations) :
    (executor.execute name params s).2 =
      match executor.reached name params with
      | none => s
      | some (tool, r) => (TracedTool.run tool r s).2 := by
  unfold execute reached
  cases executor.registry name with
  | none => rfl
  | some tool =>
    simp only
    cases tool.call (params.getD []) <;> rfl

end TracedExecutor

end NexaAssist
