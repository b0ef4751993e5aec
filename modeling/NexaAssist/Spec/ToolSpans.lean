import Mathlib.Tactic.Ring
import NexaAssist.Observability.Integration

/-!
# Spans and counts of tool runs

What the executor's calls of traced tools leave behind: a span and a count for each run, which
tell whether the tool returned, except where the run is cancelled at its deadline.
-/

namespace NexaAssist.Spec.ToolSpans

open PyJson TracedTool

/-- One call of the executor. The tools may differ from call to call. -/
structure Execution where
  executor : TracedExecutor
  name : PyStr
  params : Option (List (PyStr × PyValue))

namespace Execution

variable (e : Execution)

def perform (s : Observations) : Except PyException ToolResult × Observations :=
  e.executor.execute e.name e.params s

/-- The run that it reaches. -/
def reached : Option (PyStr × ToolRun) := e.executor.reached e.name e.params

/-- Its result, whatever the tracer and the metrics are. -/
def result : Except PyException ToolResult := e.executor.untraced.execute e.name e.params

/-- `perform` gives the result of the execution. -/
theorem perform_result (s : Observations) : (e.perform s).1 = e.result :=
  e.executor.execute_untraced e.name e.params s

/-- It reaches a run, and its result is not `OK`. -/
def failed : Bool :=
  e.reached.isSome && match e.result with
    | .ok result => result.outcome ≠ .ok
    | .error _ => true

/-- The calls of the metrics that the tool makes itself. -/
def ownCalls : List MetricsCall :=
  match e.reached with
  | some (_, r) => r.calls
  | none => []

end Execution

/-- What executions leave, one after another. -/
def leave (s : Observations) (executions : List Execution) : Observations :=
  executions.foldl (fun s e => (e.perform s).2) s

def returned : TimedCall PyValue → Bool
  | .returned _ => true
  | _ => false

/-- The increments of `tool_runs_total`, with their labels. -/
def increments (calls : List MetricsCall) : List (Option Labels × Int) :=
  calls.filterMap fun
    | .increment metric labels amount =>
      if metric = TOOL_RUNS_TOTAL then some (labels, amount) else none
    | .observe .. => none

/-- Whether labels tell of an error. -/
def tellsError (labels : Option Labels) : Bool :=
  match labels.bind fun l => PyDict.get (lit "outcome") l.entries with
  | some (.str outcome) => outcome = lit "error"
  | _ => false

def runsTotal (calls : List MetricsCall) : Int := ((increments calls).map Prod.snd).sum

def errorsTotal (calls : List MetricsCall) : Int :=
  (((increments calls).filter fun i => tellsError i.1).map Prod.snd).sum

/-- Next to what the tool records itself, a run emits one span and counts once, and both tell
    whether the tool returned. -/
structure OneSpanOneCount (s s' : Observations) (tool : PyStr) (r : ToolRun) : Prop where
  span : ∃ span, s'.tracer.recorded = s.tracer.recorded ++ r.spans ++ [span] ∧
    span.name = lit "tool.run" ∧ (span.status = .error ↔ returned r.ending = false)
  count : ∃ calls, s'.metrics = s.metrics ++ r.calls ++ calls ∧
    increments calls =
      [(some (outcome tool (if returned r.ending then lit "ok" else lit "error")), 1)]

/-- So the totals of the counts are those of the executions. -/
structure Agrees (s : Observations) (executions : List Execution) : Prop where
  each : ∀ before e after, executions = before ++ e :: after → ∀ tool r,
    e.reached = some (tool, r) →
      OneSpanOneCount (leave s before) (leave s (before ++ [e])) tool r
  runs : runsTotal (leave s executions).metrics =
    runsTotal s.metrics + (executions.map fun e => runsTotal e.ownCalls).sum +
      (executions.filter fun e => e.reached.isSome).length
  errors : errorsTotal (leave s executions).metrics =
    errorsTotal s.metrics + (executions.map fun e => errorsTotal e.ownCalls).sum +
      (executions.filter Execution.failed).length

/-! ## One run -/

variable {tool : PyStr} {r : ToolRun} {s : Observations}

/-- `run` records one span last, which has failed just if the tool ended with an exception. -/
theorem run_recorded (tool : PyStr) (r : ToolRun) (s : Observations) :
    ∃ span, (run tool r s).2.tracer.recorded = s.tracer.recorded ++ r.spans ++ [span] ∧
      span.name = lit "tool.run" ∧ (span.status = .error ↔ r.ending.body.isException = true) := by
  generalize henter : s.tracer.enter s.current (lit "tool.run") .tool [(lit "tool", .str tool)]
    r.entered = entered
  obtain ⟨frame, tracer⟩ := entered
  have hspec := Tracer.entered_of_eq henter
  refine ⟨(frame.handle.ended r.ending.body).toSpan (Tracer.durationMs frame.started r.left),
    ?_, ?_, ?_⟩
  · rw [run, henter]
    simp only [Tracer.exit_recorded, own, hspec.recorded]
  · exact (frame.handle.ended_name r.ending.body).trans hspec.name
  · have hstatus := frame.handle.ended_status r.ending.body
    rw [hspec.status] at hstatus
    show (frame.handle.ended r.ending.body).status = .error ↔ _
    rw [hstatus]
    cases r.ending.body.isException <;> simp

/-- `run` adds the calls of the tool and its own count. -/
theorem run_metrics (tool : PyStr) (r : ToolRun) (s : Observations) :
    (run tool r s).2.metrics = s.metrics ++ r.calls ++ count tool r := rfl

/-- `count` counts a run once, unless it was cancelled. -/
theorem increments_count (h : r.ending ≠ .expired) : increments (count tool r) =
    [(some (outcome tool (if returned r.ending then lit "ok" else lit "error")), 1)] := by
  unfold count
  cases hending : r.ending with
  | returned output => rfl
  | raised exception late => rfl
  | expired => exact absurd hending h

/-- The outcome tells an error just if the tool was not `ok`. -/
theorem tellsError_outcome (tool : PyStr) (ok : Bool) :
    tellsError (some (outcome tool (if ok then lit "ok" else lit "error"))) = !ok := by
  have hne : lit "tool" ≠ lit "outcome" := by decide
  simp only [tellsError, outcome, Option.bind_some, PyDict.get, if_neg hne, if_true]
  cases ok <;> decide

/-- A run that was not cancelled leaves one span and one count that tell its outcome. -/
theorem oneSpanOneCount_of_ended (h : r.ending ≠ .expired) :
    OneSpanOneCount s (run tool r s).2 tool r := by
  obtain ⟨span, hrecorded, hname, hstatus⟩ := run_recorded tool r s
  refine ⟨⟨span, hrecorded, hname, hstatus.trans ?_⟩, ⟨_, run_metrics tool r s, increments_count h⟩⟩
  cases hending : r.ending with
  | returned output => simp [TimedCall.body, Ending.isException, returned]
  | raised exception late => simp [TimedCall.body, Ending.isException, returned]
  | expired => exact absurd hending h

/-- A run that leaves one span and one count that tell its outcome was not cancelled. -/
theorem ended_of_oneSpanOneCount (h : OneSpanOneCount s (run tool r s).2 tool r) :
    r.ending ≠ .expired := by
  intro hexpired
  obtain ⟨calls, hmetrics, hincrements⟩ := h.count
  rw [run_metrics, List.append_cancel_left_eq, count, hexpired] at hmetrics
  rw [← hmetrics] at hincrements
  exact nomatch hincrements

/-! ## Any executions -/

/-- The runs of two lists of calls are those of both. -/
theorem runsTotal_append (calls calls' : List MetricsCall) :
    runsTotal (calls ++ calls') = runsTotal calls + runsTotal calls' := by
  rw [runsTotal, increments, List.filterMap_append, List.map_append, List.sum_append]
  rfl

/-- The errors of two lists of calls are those of both. -/
theorem errorsTotal_append (calls calls' : List MetricsCall) :
    errorsTotal (calls ++ calls') = errorsTotal calls + errorsTotal calls' := by
  rw [errorsTotal, increments, List.filterMap_append, List.filter_append, List.map_append,
    List.sum_append]
  rfl

/-- What an execution counts. -/
def Execution.counted (e : Execution) : List MetricsCall :=
  match e.reached with
  | some (tool, r) => count tool r
  | none => []

/-- The run that an execution reaches is cancelled. -/
def Execution.Cancelled (e : Execution) : Prop :=
  ∃ tool r, e.reached = some (tool, r) ∧ r.ending = .expired

variable {e : Execution} {executions : List Execution}

/-- An execution that reaches a tool runs it. -/
theorem perform_of_reached (h : e.reached = some (tool, r)) (s : Observations) :
    (e.perform s).2 = (run tool r s).2 := by
  have hleft := e.executor.execute_observations e.name e.params s
  rw [← Execution.reached, h] at hleft
  exact hleft

/-- `perform` adds the own calls and what is counted. -/
theorem perform_metrics (e : Execution) (s : Observations) :
    (e.perform s).2.metrics = s.metrics ++ e.ownCalls ++ e.counted := by
  have hleft := e.executor.execute_observations e.name e.params s
  rw [← Execution.reached] at hleft
  rw [Execution.perform, hleft, Execution.ownCalls, Execution.counted]
  cases e.reached with
  | none => rw [List.append_nil, List.append_nil]
  | some reached => exact run_metrics reached.1 reached.2 s

/-- The result of a run is `OK` when the tool returned. -/
theorem outcome_run (executor : TimedExecutor) (tool : PyStr) (call : TimedCall PyValue) :
    (executor.run tool call).outcome = .ok ↔ returned call = true := by
  cases call with
  | returned output => simp [TimedExecutor.run, ToolResult.success, returned]
  | expired => simp [TimedExecutor.run, ToolResult.failure, returned]
  | raised exception late =>
    cases exception <;> simp [TimedExecutor.run, ToolResult.failure, returned]

/-- An execution that reaches a tool has failed just if the tool did not return. -/
theorem failed_of_reached (h : e.reached = some (tool, r)) :
    e.failed = !returned r.ending := by
  have hresult : e.result = .ok (e.executor.untraced.run tool r.ending) := by
    have h' := h
    rw [Execution.reached, TracedExecutor.reached] at h'
    rw [← e.perform_result .empty, Execution.perform, TracedExecutor.execute]
    split at h'
    · exact nomatch h'
    · split at h'
      · rename_i hcall
        obtain ⟨rfl, rfl⟩ := Prod.mk.inj (Option.some.inj h')
        rw [hcall]
        rfl
      · exact nomatch h'
  have houtcome := outcome_run e.executor.untraced tool r.ending
  rw [Execution.failed, h, hresult, Option.isSome_some, Bool.true_and]
  cases hreturned : returned r.ending with
  | true => simpa using houtcome.mpr hreturned
  | false =>
    rw [hreturned] at houtcome
    simpa using houtcome

/-- One run is counted where a tool was reached, unless it was cancelled. -/
theorem runsTotal_counted (h : ¬ e.Cancelled) :
    runsTotal e.counted = if e.reached.isSome then 1 else 0 := by
  cases hreached : e.reached with
  | none =>
    rw [Execution.counted, hreached]
    rfl
  | some reached =>
    obtain ⟨tool, r⟩ := reached
    have hended : r.ending ≠ .expired := fun hexpired => h ⟨tool, r, hreached, hexpired⟩
    rw [Execution.counted, hreached, runsTotal, increments_count hended]
    rfl

/-- One error is counted where an execution failed, unless it was cancelled. -/
theorem errorsTotal_counted (h : ¬ e.Cancelled) :
    errorsTotal e.counted = if e.failed then 1 else 0 := by
  cases hreached : e.reached with
  | none =>
    rw [Execution.counted, Execution.failed, hreached]
    rfl
  | some reached =>
    obtain ⟨tool, r⟩ := reached
    have hended : r.ending ≠ .expired := fun hexpired => h ⟨tool, r, hreached, hexpired⟩
    rw [failed_of_reached hreached, Execution.counted, hreached, errorsTotal,
      increments_count hended, List.filter_cons, tellsError_outcome]
    cases returned r.ending <;> rfl

/-- The runs are counted once each, where no execution is cancelled. -/
theorem runs_leave (h : ∀ e ∈ executions, ¬ e.Cancelled) (s : Observations) :
    runsTotal (leave s executions).metrics =
      runsTotal s.metrics + (executions.map fun e => runsTotal e.ownCalls).sum +
        (executions.filter fun e => e.reached.isSome).length := by
  induction executions generalizing s with
  | nil => simp [leave]
  | cons e executions ih =>
    have hfirst := runsTotal_counted (h e List.mem_cons_self)
    have hrest := ih (fun e he => h e (List.mem_cons_of_mem _ he)) (e.perform s).2
    rw [perform_metrics, runsTotal_append, runsTotal_append, hfirst] at hrest
    rw [leave, List.foldl_cons, ← leave, hrest, List.map_cons, List.sum_cons, List.filter_cons]
    cases e.reached.isSome with
    | true =>
      simp only [if_true, List.length_cons]
      push_cast
      ring
    | false =>
      simp only [Bool.false_eq_true, if_false]
      ring

/-- The errors are counted once each, where no execution is cancelled. -/
theorem errors_leave (h : ∀ e ∈ executions, ¬ e.Cancelled) (s : Observations) :
    errorsTotal (leave s executions).metrics =
      errorsTotal s.metrics + (executions.map fun e => errorsTotal e.ownCalls).sum +
        (executions.filter Execution.failed).length := by
  induction executions generalizing s with
  | nil => simp [leave]
  | cons e executions ih =>
    have hfirst := errorsTotal_counted (h e List.mem_cons_self)
    have hrest := ih (fun e he => h e (List.mem_cons_of_mem _ he)) (e.perform s).2
    rw [perform_metrics, errorsTotal_append, errorsTotal_append, hfirst] at hrest
    rw [leave, List.foldl_cons, ← leave, hrest, List.map_cons, List.sum_cons, List.filter_cons]
    cases e.failed with
    | true =>
      simp only [if_true, List.length_cons]
      push_cast
      ring
    | false =>
      simp only [Bool.false_eq_true, if_false]
      ring

/-! ## The law -/

/-- The spans and the counts agree with the executions just if none of them is cancelled. -/
theorem agrees_iff (s : Observations) (executions : List Execution) :
    Agrees s executions ↔ ∀ e ∈ executions, ¬ e.Cancelled := by
  constructor
  · intro h e he hcancelled
    obtain ⟨tool, r, hreached, hexpired⟩ := hcancelled
    obtain ⟨before, after, hsplit⟩ := List.append_of_mem he
    have hone := h.each before e after hsplit tool r hreached
    rw [leave, leave, List.foldl_append, ← leave] at hone
    rw [List.foldl_cons, List.foldl_nil, perform_of_reached hreached] at hone
    exact ended_of_oneSpanOneCount hone hexpired
  · intro h
    refine ⟨?_, runs_leave h s, errors_leave h s⟩
    intro before e after hsplit tool r hreached
    have he : e ∈ executions := by
      rw [hsplit]
      exact List.mem_append_right _ List.mem_cons_self
    have hended : r.ending ≠ .expired := fun hexpired => h e he ⟨tool, r, hreached, hexpired⟩
    rw [leave, leave, List.foldl_append, ← leave, List.foldl_cons, List.foldl_nil,
      perform_of_reached hreached]
    exact oneSpanOneCount_of_ended hended

/-- A tool that does not finish in time. -/
def hanging : Execution where
  executor :=
    { registry := fun name => some
        { name := name
          call := fun _ => .accepted
            { ending := .expired, spans := [], calls := [], drawn := 0, recorder := none,
              started := 0, entered := 0, finished := 15, left := 15 } }
      timeout := lit "15"
      printable := fun _ => true }
  name := lit "search_knowledge"
  params := none

/-- A run that is cancelled is not counted, and its span tells of nothing. -/
theorem cancelled_run_uncounted : ¬ Agrees .empty [hanging] := by
  intro h
  exact absurd h.runs (by decide +kernel)

end NexaAssist.Spec.ToolSpans
