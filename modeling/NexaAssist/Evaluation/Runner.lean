import NexaAssist.Evaluation.Checks

/-!
# Running a suite

Every case is run, in order, and every check on it. A target that raised, a check that raised, and
a check that failed stay apart in the report; a target's own `TimeoutError` is told as the
deadline's. What is no `Exception` ends the run.
-/

namespace NexaAssist

open PyJson

/-- How a target ends under `asyncio.timeout`. -/
inductive TargetEnding (Output : Type)
  | returned (output : Output)
  /-- The deadline passed, and the block raised its `TimeoutError`. -/
  | late
  /-- The target raised a `TimeoutError` itself, before the deadline. -/
  | ownTimeout
  /-- It raised anything else. -/
  | raised (name : PyStr) (isException : Bool)

/-- A run of a target, between two readings of the clock. -/
structure TargetRun (Output : Type) where
  ending : TargetEnding Output
  started : Rat
  finished : Rat

/-- The thing being evaluated. What it does may depend on what it did. -/
structure EvalTarget (σ Output : Type) where
  name : PyStr
  run : σ → PyDict PyStr PyValue → TargetRun Output × σ

/-- A line of the runner's log. -/
inductive EvalLine
  | targetFailed (caseId error : PyStr)
  | checkRaised (caseId check error : PyStr)
  | complete (summary : PyStr)
  deriving DecidableEq

/-- What a run comes to: its result, or an exception that is none of an `Exception`. -/
abbrev Evaluated (α : Type) := Except PyStr α

def TARGET_FAILED : PyStr := lit "The target failed to produce an output."

def CHECK_ERRORED : PyStr := lit "The check itself raised."

/-- `EvaluationRunner`. `timeout` is the text of its seconds. -/
structure EvaluationRunner (σ Output : Type) where
  target : EvalTarget σ Output
  checks : List (Check Output)
  timeout : PyStr
  nonempty : checks ≠ []

namespace EvaluationRunner

variable {σ Output : Type}

/-- `__init__`. -/
def build (target : EvalTarget σ Output) (checks : List (Check Output)) (timeout : PyStr) :
    Except EvaluationDefinitionError (EvaluationRunner σ Output) :=
  if h : checks = [] then .error (.noChecks target.name)
  else .ok { target, checks, timeout, nonempty := h }

/-- `_elapsed_ms`. -/
def elapsedMs (run : TargetRun Output) : Rat :=
  Rounding.nearest (Rounding.nearest (run.finished - run.started) * 1000)

/-- `_check`. -/
def check (check : Check Output) (c : EvalCase) (output : Output) :
    Evaluated CheckResult × List EvalLine :=
  match check.evaluate c output with
  | .returned result => (.ok result, [])
  | .raised name false => (.error name, [])
  | .raised name true =>
    let check := check.name.getD (lit "unknown")
    (.ok { check, outcome := .errored, detail := some CHECK_ERRORED },
      [.checkRaised c.id.val check name])

/-- The checks of a case, one after another. -/
def runChecks (c : EvalCase) (output : Output) :
    List (Check Output) → Evaluated (List CheckResult) × List EvalLine
  | [] => (.ok [], [])
  | first :: rest =>
    match check first c output with
    | (.error name, lines) => (.error name, lines)
    | (.ok result, lines) =>
      let (results, after) := runChecks c output rest
      (results.map (result :: ·), lines ++ after)

variable (runner : EvaluationRunner σ Output)

/-- What is said of a `TimeoutError`. -/
def timedOut : PyStr := lit "The target did not finish within " ++ runner.timeout ++ lit "s."

/-- `_errored`. -/
def errored (c : EvalCase) (error : PyStr) (run : TargetRun Output) : CaseResult where
  caseId := c.id.val
  checks := []
  error := some error
  durationMs := elapsedMs run

/-- `_run_case`, once the target has ended. -/
def judge (c : EvalCase) (run : TargetRun Output) : Evaluated CaseResult × List EvalLine :=
  match run.ending with
  -- `except TimeoutError` does not ask whose it is
  | .late | .ownTimeout => (.ok (errored c runner.timedOut run), [])
  | .raised name true => (.ok (errored c TARGET_FAILED run), [.targetFailed c.id.val name])
  | .raised name false => (.error name, [])
  | .returned output =>
    let (results, lines) := runChecks c output runner.checks
    (results.map fun checks =>
      { caseId := c.id.val, checks, error := none, durationMs := elapsedMs run }, lines)

/-- The cases, in order. -/
def runCases (s : σ) : List EvalCase → (Evaluated (List CaseResult) × List EvalLine) × σ
  | [] => ((.ok [], []), s)
  | c :: cases =>
    let (run, s) := runner.target.run s c.inputs
    match runner.judge c run with
    | (.error name, lines) => ((.error name, lines), s)
    | (.ok result, lines) =>
      let ((results, after), s) := runCases s cases
      ((results.map (result :: ·), lines ++ after), s)

/-- `run`. -/
def run (suite : EvalSuite) (s : σ) : (Evaluated EvalReport × List EvalLine) × σ :=
  let ((results, lines), s) := runner.runCases s suite.cases
  match results with
  | .error name => ((.error name, lines), s)
  | .ok results =>
    let report := { suite := suite.name.val, results : EvalReport }
    ((.ok report, lines ++ [.complete report.summary]), s)

end EvaluationRunner

/-! ## What changed between two runs -/

/-- `tuple(sorted(..))` of a set. -/
def sortedIds (ids : List PyStr) : List PyStr := ids.dedup.insertionSort (· ≤ ·)

namespace EvalReport

def ids (report : EvalReport) : List PyStr := report.results.map (·.caseId)

def passingIds (report : EvalReport) : List PyStr :=
  (report.results.filter CaseResult.passed).map (·.caseId)

end EvalReport

/-- `RegressionSummary`. -/
structure RegressionSummary where
  baseline : EvalReport
  current : EvalReport
  regressed : List PyStr
  fixed : List PyStr
  added : List PyStr
  removed : List PyStr

namespace RegressionSummary

/-- `__init__`. -/
def ofReports (baseline current : EvalReport) : RegressionSummary where
  baseline := baseline
  current := current
  regressed := sortedIds (baseline.passingIds.filter fun id => id ∉ current.passingIds)
  fixed := sortedIds (current.passingIds.filter fun id => id ∉ baseline.passingIds)
  added := sortedIds (current.ids.filter fun id => id ∉ baseline.ids)
  removed := sortedIds (baseline.ids.filter fun id => id ∉ current.ids)

/-- Nothing that used to pass now fails, and nothing went missing. -/
def clean (summary : RegressionSummary) : Bool :=
  summary.regressed.isEmpty && summary.removed.isEmpty

def summary (s : RegressionSummary) : PyStr :=
  lit "suite=" ++ s.current.suite ++ lit " regressed=" ++ .ofString (toString s.regressed.length) ++
    lit " fixed=" ++ .ofString (toString s.fixed.length) ++
    lit " added=" ++ .ofString (toString s.added.length) ++
    lit " removed=" ++ .ofString (toString s.removed.length)

end RegressionSummary

def compareReports (baseline current : EvalReport) :
    Except EvaluationDefinitionError RegressionSummary :=
  if baseline.suite ≠ current.suite then .error (.differentSuites baseline.suite current.suite)
  else .ok (.ofReports baseline current)

end NexaAssist
