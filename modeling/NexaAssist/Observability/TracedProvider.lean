import NexaAssist.Observability.Cost
import NexaAssist.Observability.Integration

/-!
# A provider that is traced and accounted for

What a call of the model leaves behind: a span, an entry of the ledger, and three counts.
-/

namespace NexaAssist

open PyJson

/-- A schema-validated response, plus metadata about producing it. -/
structure StructuredCompletion (T : Type) where
  output : T
  provider : PyStr
  model : PyStr
  stopReason : Option PyStr
  usage : LLMUsage
  latencyMs : Rat

/-- How a call ends. Of an exception the tracer sees its type, and whether it is an
    `Exception`. -/
inductive CompletionOutcome (T : Type)
  | returned (completion : StructuredCompletion T)
  | raised (name : PyStr) (isException : Bool)

def CompletionOutcome.body {T : Type} : CompletionOutcome T → Ending
  | .returned _ => .returned
  | .raised name isException => .raised name isException

/-- A call: how the wrapped provider ends it, the spans and the metrics that others record
    meanwhile with the ids drawn for them, the exception that the recorder raises over its span,
    if any, and the readings of the clock. -/
structure ModelCall (T : Type) where
  schema : PyStr
  outcome : CompletionOutcome T
  spans : List Span
  calls : List MetricsCall
  drawn : Nat
  recorder : Option PyStr
  entered : Rat
  left : Rat

/-- What a task finds of the tracer, the metrics and the ledger. -/
structure Accounts where
  observations : Observations
  ledger : UsageLedger

/-- None yet. -/
def Accounts.empty : Accounts where
  observations := .empty
  ledger := .empty

/-- `TracedLLMProvider`, by the name of the provider it wraps. -/
structure TracedLLMProvider where
  name : PyStr
  pricing : PricingTable

namespace TracedLLMProvider

def SPAN_NAME : PyStr := lit "llm.complete_structured"

def CALLS_TOTAL : PyStr := lit "llm_calls_total"

def INPUT_TOKENS_TOTAL : PyStr := lit "llm_input_tokens_total"

def OUTPUT_TOKENS_TOTAL : PyStr := lit "llm_output_tokens_total"

/-- The labels of the provider and of the model have names of their own. -/
theorem labelNames_nodup : [lit "provider", lit "model"].Nodup := by decide

/-- The labels of a call. -/
def labels (provider model : PyStr) : Labels where
  entries := [(lit "provider", .str provider), (lit "model", .str model)]
  distinct := labelNames_nodup

/-- What is set on the span. -/
def attributes (stopReason : Option PyStr) (estimate : CostEstimate) : Attributes :=
  [(lit "model", .str estimate.model), (lit "input_tokens", .int estimate.inputTokens),
    (lit "output_tokens", .int estimate.outputTokens),
    (lit "usage_reported", .bool estimate.usageReported), (lit "priced", .bool estimate.priced),
    (lit "cost", .str estimate.totalCost.text),
    (lit "stop_reason", stopReason.elim .none .str)]

/-- What is counted. -/
def count (estimate : CostEstimate) : List MetricsCall :=
  let labels := some (labels estimate.provider estimate.model)
  [.increment CALLS_TOTAL labels 1, .increment INPUT_TOKENS_TOTAL labels estimate.inputTokens,
    .increment OUTPUT_TOKENS_TOTAL labels estimate.outputTokens]

variable {T : Type} (p : TracedLLMProvider)

/-- `_account`, up to what it records. -/
def account (completion : StructuredCompletion T) : Except CostFailure CostEstimate :=
  estimateCost completion.provider completion.model completion.usage p.pricing

/-- The body of the span, once the wrapped provider has ended: how it ends, the span's frame, and
    the estimate if there is one. -/
def settle (c : ModelCall T) (frame : Frame) :
    CompletionOutcome T × Frame × Option CostEstimate :=
  match c.outcome with
  | .raised name isException => (.raised name isException, frame, none)
  | .returned completion =>
    match p.account completion with
    | .error failure => (.raised failure.className true, frame, none)
    | .ok estimate =>
      (.returned completion,
        { frame with
          handle := frame.handle.setAttributes (attributes completion.stopReason estimate) },
        some estimate)

def completeStructured (c : ModelCall T) (s : Accounts) : CompletionOutcome T × Accounts :=
  let (frame, tracer) := s.observations.tracer.enter s.observations.current SPAN_NAME .llm
    [(lit "provider", .str p.name), (lit "schema", .str c.schema)] c.entered
  let inside : Tracer := { tracer with
    nextId := tracer.nextId + c.drawn
    recorded := tracer.recorded ++ c.spans }
  let (outcome, frame, estimate) := p.settle c frame
  let (_, tracer) := inside.exit frame outcome.body (.ofRecorder c.recorder) c.left
  (outcome, {
    observations := {
      tracer
      current := frame.token
      metrics := s.observations.metrics ++ c.calls ++ estimate.elim [] count }
    ledger := estimate.elim s.ledger s.ledger.add })

end TracedLLMProvider

end NexaAssist
