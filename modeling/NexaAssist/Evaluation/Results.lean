import Mathlib.Data.List.Basic
import NexaAssist.ForStd.Rounding
import NexaAssist.Schemas.Types

/-!
# What an evaluation produces

A report, with the verdict of every check on every case.
-/

namespace NexaAssist

open PyJson

/-- How one check ended. -/
inductive CheckOutcome
  | passed
  | failed
  | errored
  deriving DecidableEq, Repr

/-- One check's verdict on one case. -/
structure CheckResult where
  check : PyStr
  outcome : CheckOutcome
  detail : Option PyStr
  deriving DecidableEq

def CheckResult.ok (result : CheckResult) : Bool := result.outcome = .passed

/-- Every check's verdict on one case. `error` is set when the target itself failed. -/
structure CaseResult where
  caseId : PyStr
  checks : List CheckResult
  error : Option PyStr
  durationMs : Rat

namespace CaseResult

/-- A case passes only if every check did. -/
def passed (result : CaseResult) : Bool :=
  result.error.isNone && !result.checks.isEmpty && result.checks.all CheckResult.ok

def failures (result : CaseResult) : List CheckResult := result.checks.filter fun c => !c.ok

end CaseResult

/-- The outcome of running a suite. -/
structure EvalReport where
  suite : PyStr
  results : List CaseResult

namespace EvalReport

def total (report : EvalReport) : Nat := report.results.length

def passed (report : EvalReport) : Nat := report.results.countP CaseResult.passed

def failed (report : EvalReport) : Nat := report.total - report.passed

/-- `pass_rate`. An empty suite has nothing wrong with it. -/
def passRate (report : EvalReport) : Rat :=
  if report.total = 0 then 1 else Rounding.nearest (report.passed / report.total)

def failing (report : EvalReport) : List CaseResult := report.results.filter fun r => !r.passed

/-- `f"{rate:.2f}"` of a rate. -/
def hundredths (rate : Rat) : PyStr :=
  let n := (Rounding.halfEven (rate * 100)).toNat
  .ofString (toString (n / 100)) ++ lit "." ++ .ofString (toString (n / 10 % 10)) ++
    .ofString (toString (n % 10))

/-- `summary`. Counts only, never case content. -/
def summary (report : EvalReport) : PyStr :=
  lit "suite=" ++ report.suite ++ lit " total=" ++ .ofString (toString report.total) ++
    lit " passed=" ++ .ofString (toString report.passed) ++
    lit " failed=" ++ .ofString (toString report.failed) ++
    lit " pass_rate=" ++ hundredths report.passRate

/-- What `describe_failures` says of a case. -/
def describe (result : CaseResult) : List PyStr :=
  match result.error with
  | some error => [result.caseId ++ lit ": " ++ error]
  | none => result.failures.map fun check =>
    result.caseId ++ lit ": " ++ check.check ++
      (if (check.detail.getD []).isEmpty then [] else lit " — " ++ check.detail.getD [])

def describeFailures (report : EvalReport) : List PyStr := report.failing.flatMap describe

end EvalReport

end NexaAssist
