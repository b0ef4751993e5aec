import NexaAssist.ForStd.PyDict
import NexaAssist.Schemas.Types

/-!
# Spans

What one unit of traced work looks like. An attribute is a number, a flag or one short word:
anything that could be prose is replaced.
-/

namespace NexaAssist

open PyJson

/-- Longest string an attribute may hold. -/
def MAX_ATTRIBUTE_LENGTH : Nat := 120

/-- Stands in for a value that was not safe to record. -/
def OMITTED : PyStr := lit "<omitted>"

/-- `_safe_value`. -/
def safeValue : PyValue → PyValue
  | .none => .none
  | .bool b => .bool b
  | .int i => .int i
  | .float f => .float f
  | .str text =>
    if MAX_ATTRIBUTE_LENGTH < text.length || text.any isSpace then .str OMITTED else .str text
  | _ => .str OMITTED

/-- Attributes by name. -/
abbrev Attributes := PyDict PyStr PyValue

/-- `sanitise_attributes`. -/
def sanitiseAttributes (raw : Attributes) : Attributes :=
  PyDict.ofEntries (raw.map fun entry => (entry.1, safeValue entry.2))

/-- `sanitiseAttributes` makes each value safe, where the keys are apart. -/
theorem sanitiseAttributes_eq {raw : Attributes} (hdistinct : (PyDict.keys raw).Nodup) :
    sanitiseAttributes raw = raw.map fun entry => (entry.1, safeValue entry.2) := by
  apply PyDict.ofEntries_eq
  rw [PyDict.keys, List.map_map]
  exact hdistinct

/-! ## One unit of work -/

/-- Which layer produced a span. -/
inductive SpanKind
  | request
  | agent
  | tool
  | workflow
  | llm
  | routing
  | retrieval
  deriving DecidableEq, Repr

/-- How the work ended. -/
inductive SpanStatus
  | ok
  | error
  deriving DecidableEq, Repr

/-- One completed unit of traced work. Ids are numbered in the order in which they are made. -/
structure Span where
  traceId : Nat
  spanId : Nat
  parentSpanId : Option Nat
  name : PyStr
  kind : SpanKind
  status : SpanStatus
  durationMs : Rat
  errorCategory : Option PyStr
  attributes : Attributes

end NexaAssist
