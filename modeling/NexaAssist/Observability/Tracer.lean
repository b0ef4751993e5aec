import NexaAssist.ForStd.Machine
import NexaAssist.ForStd.Rounding
import NexaAssist.Observability.Spans

/-!
# Producing traces

`Tracer.span` as what it does before its body and after it, and the tasks it is used in: each
has its own context, which begins as a copy of its creator's.
-/

namespace NexaAssist

open PyJson

/-! ## Spans in progress -/

/-- What is read of the handle that the context holds. -/
structure SpanRef where
  traceId : Nat
  spanId : Nat
  deriving DecidableEq

/-- A span in progress. -/
structure SpanHandle where
  traceId : Nat
  spanId : Nat
  parentSpanId : Option Nat
  name : PyStr
  kind : SpanKind
  attributes : Attributes
  status : SpanStatus
  errorCategory : Option PyStr

namespace SpanHandle

def ref (handle : SpanHandle) : SpanRef where
  traceId := handle.traceId
  spanId := handle.spanId

def setAttributes (handle : SpanHandle) (values : Attributes) : SpanHandle :=
  { handle with attributes := PyDict.update (sanitiseAttributes values) handle.attributes }

/-- Mark the span failed. Category only. -/
def recordError (handle : SpanHandle) (category : PyStr) : SpanHandle :=
  { handle with status := .error, errorCategory := some category }

def toSpan (handle : SpanHandle) (durationMs : Rat) : Span where
  traceId := handle.traceId
  spanId := handle.spanId
  parentSpanId := handle.parentSpanId
  name := handle.name
  kind := handle.kind
  status := handle.status
  durationMs := durationMs
  errorCategory := handle.errorCategory
  attributes := handle.attributes

end SpanHandle

/-! ## The tracer -/

/-- How code ends, as the tracer tells it: `except Exception` does not catch every exception,
    and not a cancellation. -/
inductive Ending
  | returned
  | raised (name : PyStr) (isException : Bool)
  deriving DecidableEq

def Ending.isException : Ending → Bool
  | .returned => false
  | .raised _ isException => isException

/-- The tracer of a process: the ids it made, the spans it handed to its recorder, and the
    exceptions of the recorder that it logged. -/
structure Tracer where
  nextId : Nat
  recorded : List Span
  warnings : List PyStr

/-- The `except` clause of `span`: the type of an exception only. -/
def SpanHandle.ended (handle : SpanHandle) : Ending → SpanHandle
  | .raised name true => handle.recordError name
  | _ => handle

/-- The end of a span leaves its trace. -/
@[simp]
theorem SpanHandle.ended_traceId (handle : SpanHandle) (body : Ending) :
    (handle.ended body).traceId = handle.traceId := by
  unfold ended
  split <;> rfl

/-- `ended` leaves the id of a span. -/
@[simp]
theorem SpanHandle.ended_spanId (handle : SpanHandle) (body : Ending) :
    (handle.ended body).spanId = handle.spanId := by
  unfold ended
  split <;> rfl

/-- `ended` leaves the name of a span. -/
@[simp]
theorem SpanHandle.ended_name (handle : SpanHandle) (body : Ending) :
    (handle.ended body).name = handle.name := by
  unfold ended
  split <;> rfl

/-- Only an `Exception` makes a span fail. -/
theorem SpanHandle.ended_status (handle : SpanHandle) (body : Ending) :
    (handle.ended body).status = if body.isException then .error else handle.status := by
  cases body with
  | returned => rfl
  | raised name isException => cases isException <;> rfl

/-- `ended` leaves the parent of a span. -/
@[simp]
theorem SpanHandle.ended_parentSpanId (handle : SpanHandle) (body : Ending) :
    (handle.ended body).parentSpanId = handle.parentSpanId := by
  unfold ended
  split <;> rfl

/-- What `span` keeps while its body runs. -/
structure Frame where
  handle : SpanHandle
  token : Option SpanRef
  started : Rat

namespace Tracer

def init : Tracer where
  nextId := 0
  recorded := []
  warnings := []

/-- `new_id`. Ids never repeat. -/
def newId (tracer : Tracer) : Nat × Tracer :=
  (tracer.nextId, { tracer with nextId := tracer.nextId + 1 })

/-- `span`, up to its body: the context holds the handle from then on. -/
def enter (tracer : Tracer) (current : Option SpanRef) (name : PyStr) (kind : SpanKind)
    (attributes : Attributes) (now : Rat) : Frame × Tracer :=
  let (traceId, tracer) := match current with
    | some parent => (parent.traceId, tracer)
    | none => tracer.newId
  let (spanId, tracer) := tracer.newId
  let handle : SpanHandle :=
    { traceId, spanId, parentSpanId := current.map SpanRef.spanId, name, kind,
      attributes := sanitiseAttributes attributes, status := .ok, errorCategory := none }
  ({ handle, token := current, started := now }, tracer)

/-- What `enter` makes of the context it finds: a span below the current one and in its trace,
    or in a trace of its own, with an id that is new. -/
structure Entered (tracer : Tracer) (current : Option SpanRef) (name : PyStr) (frame : Frame)
    (tracer' : Tracer) : Prop where
  name : frame.handle.name = name
  status : frame.handle.status = .ok
  token : frame.token = current
  parent : frame.handle.parentSpanId = current.map SpanRef.spanId
  sameTrace : ∀ parent ∈ current, frame.handle.traceId = parent.traceId
  newTrace : current = none → frame.handle.traceId = tracer.nextId
  newSpan : tracer.nextId ≤ frame.handle.spanId
  spanId_lt : frame.handle.spanId < tracer'.nextId
  recorded : tracer'.recorded = tracer.recorded

/-- `enter` enters a span, as `Entered` says. -/
theorem enter_spec (tracer : Tracer) (current : Option SpanRef) (name : PyStr) (kind : SpanKind)
    (attributes : Attributes) (now : Rat) :
    Entered tracer current name (tracer.enter current name kind attributes now).1
      (tracer.enter current name kind attributes now).2 := by
  cases current with
  | none => exact ⟨rfl, rfl, rfl, rfl, nofun, fun _ => rfl, Nat.le_succ _, Nat.lt_succ_self _, rfl⟩
  | some current =>
    refine ⟨rfl, rfl, rfl, rfl, ?_, nofun, Nat.le_refl _, Nat.lt_succ_self _, rfl⟩
    rintro parent ⟨⟩
    rfl


/-- What `enter` has given is a frame that `Entered` describes. -/
theorem entered_of_eq {tracer tracer' : Tracer} {current : Option SpanRef} {name : PyStr}
    {kind : SpanKind} {attributes : Attributes} {now : Rat} {frame : Frame}
    (h : tracer.enter current name kind attributes now = (frame, tracer')) :
    Entered tracer current name frame tracer' := by
  have hspec := enter_spec tracer current name kind attributes now
  rw [h] at hspec
  exact hspec

/-- `_emit`, with a recorder that ends as it does, and how it ends itself. -/
def emit (tracer : Tracer) (span : Span) (recorder : Ending) : Ending × Tracer :=
  let tracer := { tracer with recorded := tracer.recorded ++ [span] }
  match recorder with
  | .returned => (.returned, tracer)
  | .raised name true => (.returned, { tracer with warnings := tracer.warnings ++ [name] })
  | .raised name false => (.raised name false, tracer)

/-- The duration of a span, in floats. -/
def durationMs (started now : Rat) : Rat := Rounding.nearest (Rounding.nearest (now - started) * 1000)

/-- `span`, after its body: the context holds the token's value from then on. What comes out is
    how the body ended, unless `_emit` raises. -/
def exit (tracer : Tracer) (frame : Frame) (body recorder : Ending) (now : Rat) :
    Ending × Tracer :=
  let span := (frame.handle.ended body).toSpan (durationMs frame.started now)
  let (emitted, tracer) := tracer.emit span recorder
  (if emitted = .returned then body else emitted, tracer)

section Exit

variable (tracer : Tracer)

/-- `emit` draws no id. -/
@[simp]
theorem emit_nextId (span : Span) (recorder : Ending) :
    (tracer.emit span recorder).2.nextId = tracer.nextId := by
  unfold emit
  split <;> rfl

/-- Whatever the recorder does, it has been handed the span. -/
@[simp]
theorem emit_recorded (span : Span) (recorder : Ending) :
    (tracer.emit span recorder).2.recorded = tracer.recorded ++ [span] := by
  unfold emit
  split <;> rfl

variable (frame : Frame) (body recorder : Ending) (now : Rat)

/-- `exit` draws no id. -/
@[simp]
theorem exit_nextId : (tracer.exit frame body recorder now).2.nextId = tracer.nextId :=
  tracer.emit_nextId _ _

/-- `exit` records the span that has ended. -/
@[simp]
theorem exit_recorded : (tracer.exit frame body recorder now).2.recorded = tracer.recorded ++
    [(frame.handle.ended body).toSpan (durationMs frame.started now)] :=
  tracer.emit_recorded _ _

end Exit

end Tracer

/-! ## Tasks -/

/-- A task: the context it began with, the one it has, and the blocks it is in, innermost
    first. -/
structure Task where
  inherited : Option SpanRef
  current : Option SpanRef
  frames : List Frame

/-- What code may do to a span it has the handle of. -/
inductive Mark
  | attributes (values : Attributes)
  | error (category : PyStr)

def SpanHandle.annotate (handle : SpanHandle) : Mark → SpanHandle
  | .attributes values => handle.setAttributes values
  | .error category => handle.recordError category

/-- A mark leaves where a span is. -/
@[simp]
theorem SpanHandle.annotate_ref (handle : SpanHandle) (mark : Mark) :
    (handle.annotate mark).ref = handle.ref := by
  cases mark <;> rfl

/-- `annotate` leaves the parent of a span. -/
@[simp]
theorem SpanHandle.annotate_parentSpanId (handle : SpanHandle) (mark : Mark) :
    (handle.annotate mark).parentSpanId = handle.parentSpanId := by
  cases mark <;> rfl

/-- A span is annotated in the block that it is the span of. -/
def Frame.annotate (spanId : Nat) (mark : Mark) (frame : Frame) : Frame :=
  if frame.handle.spanId = spanId then { frame with handle := frame.handle.annotate mark }
  else frame

section Annotate

variable (spanId : Nat) (mark : Mark) (frame : Frame)

/-- `annotate` leaves where the span of a frame is. -/
@[simp]
theorem Frame.annotate_ref : (frame.annotate spanId mark).handle.ref = frame.handle.ref := by
  unfold annotate
  split <;> simp

/-- `annotate` leaves the parent of the span of a frame. -/
@[simp]
theorem Frame.annotate_parentSpanId :
    (frame.annotate spanId mark).handle.parentSpanId = frame.handle.parentSpanId := by
  unfold annotate
  split <;> simp

/-- `annotate` leaves the token of a frame. -/
@[simp]
theorem Frame.annotate_token : (frame.annotate spanId mark).token = frame.token := by
  unfold annotate
  split <;> rfl

end Annotate

def Task.annotate (spanId : Nat) (mark : Mark) (task : Task) : Task :=
  { task with frames := task.frames.map (Frame.annotate spanId mark) }

/-- A tracer, and the tasks that use it. -/
structure Traced where
  tracer : Tracer
  tasks : List Task

/-- What a task does next: a `with` block begins or ends, a span is annotated, or another task
    is created. -/
inductive TraceEvent
  | enter (task : Nat) (name : PyStr) (kind : SpanKind) (attributes : Attributes) (now : Rat)
  | exit (task : Nat) (body recorder : Ending) (now : Rat)
  | annotate (spanId : Nat) (mark : Mark)
  | spawn (task : Nat)

namespace Traced

/-- One task, outside any span. -/
def init : Traced where
  tracer := .init
  tasks := [{ inherited := none, current := none, frames := [] }]

def step (w : Traced) : TraceEvent → Option Traced
  | .enter i name kind attributes now =>
    w.tasks[i]?.map fun task =>
      let (frame, tracer) := w.tracer.enter task.current name kind attributes now
      { tracer
        tasks := w.tasks.set i
          { task with current := some frame.handle.ref, frames := frame :: task.frames } }
  | .exit i body recorder now =>
    match w.tasks[i]? with
    | some { inherited, current := _, frames := frame :: frames } =>
      some
        { tracer := (w.tracer.exit frame body recorder now).2
          tasks := w.tasks.set i { inherited, current := frame.token, frames } }
    | _ => none
  | .annotate spanId mark =>
    some { w with tasks := w.tasks.map (Task.annotate spanId mark) }
  | .spawn i =>
    w.tasks[i]?.map fun task =>
      { w with
        tasks := w.tasks ++ [{ inherited := task.current, current := task.current, frames := [] }] }

end Traced

end NexaAssist
