import NexaAssist.Evaluation.Runner
import NexaAssist.ForStd.List

/-!
# Runs of an evaluation, and what changed between them

A report tells the whole of a run: every case, in order, and what became of it. So a clean
comparison of two reports means that whatever the one run found in order the other did too.
-/

namespace NexaAssist.Spec.EvaluationRuns

open PyJson EvaluationRunner

variable {σ Output : Type}

/-! ## What a run does -/

/-- A case, and the run of the target for it. -/
abbrev Attempt (Output : Type) := EvalCase × TargetRun Output

/-- What a target does for some cases, one after another. -/
def attempts (target : EvalTarget σ Output) (s : σ) : List EvalCase → List (Attempt Output)
  | [] => []
  | c :: cases =>
    (c, (target.run s c.inputs).1) :: attempts target (target.run s c.inputs).2 cases

/-- The target returned, and every check passed. -/
def Green (checks : List (Check Output)) (a : Attempt Output) : Prop :=
  ∃ output, a.2.ending = .returned output ∧
    ∀ check ∈ checks, ∃ result, check.evaluate a.1 output = .returned result ∧ result.ok = true

/-- The target or a check raised what is no `Exception`. -/
def Escapes (checks : List (Check Output)) (a : Attempt Output) : Prop :=
  (∃ name, a.2.ending = .raised name false) ∨
    ∃ output, a.2.ending = .returned output ∧
      ∃ check ∈ checks, ∃ name, check.evaluate a.1 output = .raised name false

/-- The verdict of a check that ended so. -/
def Judged (c : EvalCase) (output : Output) (check : Check Output) (result : CheckResult) : Prop :=
  check.evaluate c output = .returned result ∨
    ∃ name, check.evaluate c output = .raised name true ∧
      result.check = check.name.getD (lit "unknown") ∧ result.outcome = .errored ∧
      result.detail = some CHECK_ERRORED

/-- What is told of an attempt. -/
structure Told (runner : EvaluationRunner σ Output) (a : Attempt Output) (result : CaseResult) :
    Prop where
  caseId : result.caseId = a.1.id.val
  caught : ∀ name, a.2.ending ≠ .raised name false
  returned : ∀ output, a.2.ending = .returned output →
    result.error = none ∧ List.Forall₂ (Judged a.1 output) runner.checks result.checks
  /-- A `TimeoutError` of the target's own is told as the deadline's. -/
  timeout : result.error = some runner.timedOut ↔ a.2.ending = .late ∨ a.2.ending = .ownTimeout
  raised : result.error = some TARGET_FAILED ↔ ∃ name, a.2.ending = .raised name true
  unchecked : result.error ≠ none → result.checks = []
  passed : result.passed = true ↔ Green runner.checks a

/-- What a run comes to. -/
structure Reported (runner : EvaluationRunner σ Output) (suite : EvalSuite) (s : σ) : Prop where
  /-- Nothing but what is no `Exception` ends it early. -/
  escaped : (∃ name, (runner.run suite s).1.1 = .error name) ↔
    ∃ a ∈ attempts runner.target s suite.cases, Escapes runner.checks a
  /-- A report tells of every case, in order. -/
  told : ∀ report, (runner.run suite s).1.1 = .ok report → report.suite = suite.name.val ∧
    List.Forall₂ (Told runner) (attempts runner.target s suite.cases) report.results
  /-- And all that is wrong is described, under the id of its case. -/
  described : ∀ report, (runner.run suite s).1.1 = .ok report →
    (∀ result ∈ report.results, result.passed = false ↔
      ∃ line ∈ report.describeFailures, (result.caseId ++ lit ": ") <+: line ∧
        line ∈ EvalReport.describe result) ∧
    (report.describeFailures = [] ↔ report.passed = report.total)

/-! ## One case -/

section Case

variable {c : EvalCase} {output : Output} {checks : List (Check Output)}
  {runner : EvaluationRunner σ Output} {a : Attempt Output}

/-- Where `check` gives a result, it is one that `Judged` allows. -/
theorem check_ok {check : Check Output} {result : CheckResult}
    (h : (EvaluationRunner.check check c output).1 = .ok result) : Judged c output check result := by
  unfold EvaluationRunner.check at h
  split at h
  · rename_i hevaluate
    obtain rfl := Except.ok.inj h
    exact .inl hevaluate
  · cases h
  · rename_i name hevaluate
    obtain rfl := Except.ok.inj h
    exact .inr ⟨name, hevaluate, rfl, rfl, rfl⟩

/-- `check` lets an exception out just if the check raises what is no `Exception`. -/
theorem check_error {check : Check Output} :
    (∃ name, (EvaluationRunner.check check c output).1 = .error name) ↔
      ∃ name, check.evaluate c output = .raised name false := by
  unfold EvaluationRunner.check
  split
  · rename_i hevaluate
    simp [hevaluate]
  · rename_i name hevaluate
    simp [hevaluate]
  · rename_i name hevaluate
    simp [hevaluate]

/-- `runChecks` makes the first check and then the others. -/
theorem runChecks_cons (first : Check Output) (rest : List (Check Output)) :
    (runChecks c output (first :: rest)).1 = do
      let result ← (EvaluationRunner.check first c output).1
      let results ← (runChecks c output rest).1
      return result :: results := by
  rw [runChecks]
  split
  · rename_i name lines hcheck
    rw [hcheck]
    rfl
  · rename_i result lines hcheck
    rw [hcheck]
    rfl

/-- `runChecks` makes every check, up to the first that raises. -/
theorem runChecks_fst (c : EvalCase) (output : Output) (checks : List (Check Output)) :
    (runChecks c output checks).1 =
      checks.mapM fun check => (EvaluationRunner.check check c output).1 := by
  induction checks with
  | nil => rfl
  | cons first rest ih => rw [runChecks_cons, List.mapM_cons, ih]

/-- Where `runChecks` gives results, each check was judged. -/
theorem runChecks_ok {results : List CheckResult} (h : (runChecks c output checks).1 = .ok results) :
    List.Forall₂ (Judged c output) checks results := by
  rw [runChecks_fst, List.mapM_eq_ok_iff] at h
  exact h.imp fun check result => check_ok

/-- `runChecks` lets an exception out just if one of the checks raises it. -/
theorem runChecks_error : (∃ name, (runChecks c output checks).1 = .error name) ↔
    ∃ check ∈ checks, ∃ name, check.evaluate c output = .raised name false := by
  rw [runChecks_fst, List.exists_mapM_eq_error_iff]
  simp only [check_error]

/-- An exception ends a case where the target or a check lets one escape. -/
theorem judge_error : (∃ name, (runner.judge a.1 a.2).1 = .error name) ↔ Escapes runner.checks a := by
  unfold EvaluationRunner.judge Escapes
  cases hending : a.2.ending with
  | late => simp
  | ownTimeout => simp
  | raised name isException => cases isException <;> simp
  | returned output =>
    have hchecks : (∃ name, (runChecks a.1 output runner.checks).1 = .error name) ↔
        ∃ check ∈ runner.checks, ∃ name, check.evaluate a.1 output = .raised name false :=
      runChecks_error
    simp only [reduceCtorEq, exists_false, false_or, TargetEnding.returned.injEq, exists_eq_left',
      ← hchecks]
    cases (runChecks a.1 output runner.checks).1 <;> simp [Except.map]

/-- Where every check has its verdict, the case passes if all of them say so. -/
theorem passed_of_judged {result : CaseResult} (hne : checks ≠ []) (herror : result.error = none)
    (hjudged : List.Forall₂ (Judged c output) checks result.checks) :
    result.passed = true ↔ ∀ check ∈ checks, ∃ verdict, check.evaluate c output = .returned verdict ∧
      verdict.ok = true := by
  have hchecks : result.checks.isEmpty = false := by
    rw [List.isEmpty_eq_false_iff, ← List.length_pos_iff, ← hjudged.length_eq]
    exact List.length_pos_iff.mpr hne
  have hall : result.checks.all CheckResult.ok = true ↔ ∀ check ∈ checks,
      ∃ verdict, check.evaluate c output = .returned verdict ∧ verdict.ok = true := by
    rw [List.all_eq_true]
    clear hchecks hne herror
    generalize result.checks = verdicts at hjudged
    induction hjudged with
    | nil => simp
    | @cons check verdict rest verdicts hfirst _ ih =>
      rw [List.forall_mem_cons, List.forall_mem_cons, ih]
      apply and_congr_left'
      -- A check that raised has no verdict of its own, and `ERRORED` is not `PASSED`
      obtain hreturned | ⟨name, hraised, -, hverdict, -⟩ := hfirst
      · simp [hreturned]
      · simp [hraised, CheckResult.ok, hverdict]
  rw [← hall, CaseResult.passed, herror, hchecks]
  simp

/-- The two things said of a target begin alike, and part at the twelfth letter. -/
theorem timedOut_ne_targetFailed (runner : EvaluationRunner σ Output) :
    runner.timedOut ≠ TARGET_FAILED := by
  intro h
  have hletter := congrArg (fun text : PyStr => text[11]?) h
  rw [timedOut, List.append_assoc, List.getElem?_append_left (by decide)] at hletter
  revert hletter
  decide

/-- What `_errored` makes of an attempt whose target returned nothing. -/
theorem told_errored {error : PyStr} (hcaught : ∀ name, a.2.ending ≠ .raised name false)
    (hreturned : ∀ output, a.2.ending ≠ .returned output)
    (htimeout : error = runner.timedOut ↔ a.2.ending = .late ∨ a.2.ending = .ownTimeout)
    (hraised : error = TARGET_FAILED ↔ ∃ name, a.2.ending = .raised name true) :
    Told runner a (errored a.1 error a.2) where
  caseId := rfl
  caught := hcaught
  returned output h := absurd h (hreturned output)
  timeout := by rw [errored, Option.some_inj, htimeout]
  raised := by rw [errored, Option.some_inj, hraised]
  unchecked _ := rfl
  passed := by simp [Green, hreturned, errored, CaseResult.passed]

/-- Where `judge` gives a result, it tells what came of the attempt. -/
theorem judge_ok {result : CaseResult} (h : (runner.judge a.1 a.2).1 = .ok result) :
    Told runner a result := by
  obtain ⟨c, run⟩ := a
  have hne := timedOut_ne_targetFailed runner
  unfold EvaluationRunner.judge at h
  -- The branches of `EvaluationRunner._run_case`
  cases hending : run.ending with
  | late =>
    rw [hending] at h
    obtain rfl := Except.ok.inj h
    apply told_errored <;> simp [hending, hne]
  | ownTimeout =>
    rw [hending] at h
    obtain rfl := Except.ok.inj h
    apply told_errored <;> simp [hending, hne]
  | raised name isException =>
    rw [hending] at h
    cases isException with
    | false => cases h
    -- Only what derives from `Exception` is caught
    | true =>
      obtain rfl := Except.ok.inj h
      apply told_errored <;> simp [hending, hne.symm]
  | returned output =>
    rw [hending] at h
    simp only at h
    cases hchecks : (runChecks c output runner.checks).1 with
    | error name =>
      rw [hchecks] at h
      cases h
    -- A target that returned is judged by its checks alone
    | ok results =>
      rw [hchecks] at h
      obtain rfl := Except.ok.inj h
      have hjudged := runChecks_ok hchecks
      constructor
      case caseId => rfl
      case caught => simp [hending]
      case returned =>
        intro other hother
        obtain rfl := TargetEnding.returned.inj (hending.symm.trans hother)
        exact ⟨rfl, hjudged⟩
      case timeout => simp [hending]
      case raised => simp [hending]
      case unchecked => simp
      case passed =>
        rw [passed_of_judged runner.nonempty rfl hjudged]
        simp [Green, hending]

end Case

/-! ## Every case -/

section Run

variable {runner : EvaluationRunner σ Output} {cases : List EvalCase} {suite : EvalSuite} {s : σ}

/-- `runCases` judges the first case and then runs the others. -/
theorem runCases_cons (runner : EvaluationRunner σ Output) (s : σ) (c : EvalCase)
    (cases : List EvalCase) : (runner.runCases s (c :: cases)).1.1 = do
      let result ← (runner.judge c (runner.target.run s c.inputs).1).1
      let results ← (runner.runCases (runner.target.run s c.inputs).2 cases).1.1
      return result :: results := by
  rw [runCases]
  split
  rename_i run s' hrun
  rw [hrun]
  split
  · rename_i name lines hjudge
    rw [hjudge]
    rfl
  · rename_i result lines hjudge
    rw [hjudge]
    rfl

/-- `runCases` judges every attempt, up to the first whose exception escapes. -/
theorem runCases_fst (runner : EvaluationRunner σ Output) (s : σ) (cases : List EvalCase) :
    (runner.runCases s cases).1.1 =
      (attempts runner.target s cases).mapM fun a => (runner.judge a.1 a.2).1 := by
  induction cases generalizing s with
  | nil => rfl
  | cons c cases ih => rw [runCases_cons, attempts, List.mapM_cons, ih]

/-- Where `runCases` gives results, each attempt is told. -/
theorem runCases_ok {results : List CaseResult}
    (h : (runner.runCases s cases).1.1 = .ok results) :
    List.Forall₂ (Told runner) (attempts runner.target s cases) results := by
  rw [runCases_fst, List.mapM_eq_ok_iff] at h
  exact h.imp fun a result => judge_ok

/-- `runCases` lets an exception out just if a check of one of the attempts does. -/
theorem runCases_error : (∃ name, (runner.runCases s cases).1.1 = .error name) ↔
    ∃ a ∈ attempts runner.target s cases, Escapes runner.checks a := by
  rw [runCases_fst, List.exists_mapM_eq_error_iff]
  simp only [judge_error]

/-- `run` reports what `runCases` gives, under the name of the suite. -/
theorem run_fst (runner : EvaluationRunner σ Output) (suite : EvalSuite) (s : σ) :
    (runner.run suite s).1.1 =
      (runner.runCases s suite.cases).1.1.map fun results => { suite := suite.name.val, results } := by
  unfold EvaluationRunner.run
  cases hcases : runner.runCases s suite.cases with
  | mk outcome s' =>
    obtain ⟨results, lines⟩ := outcome
    cases results <;> rfl

/-! ## What is described -/

variable {report : EvalReport} {result : CaseResult}

/-- A result with a check that is not `PASSED`, or an error, has a line; and one that has neither
    would have no check at all. -/
theorem describe_ne_nil (hfailed : result.passed = false)
    (hchecked : result.error = none → result.checks ≠ []) : EvalReport.describe result ≠ [] := by
  unfold EvalReport.describe
  cases herror : result.error with
  | some error => simp
  | none =>
    have hne := hchecked herror
    simp only [ne_eq, List.map_eq_nil_iff, CaseResult.failures, List.filter_eq_nil_iff]
    intro hall
    have hpassed : result.passed = true := by
      rw [CaseResult.passed, herror, List.isEmpty_eq_false_iff.mpr hne]
      simpa using hall
    rw [hpassed] at hfailed
    cases hfailed

/-- A line of `describe` begins with the id of the case. -/
theorem prefix_of_mem_describe {line : PyStr} (h : line ∈ EvalReport.describe result) :
    (result.caseId ++ lit ": ") <+: line := by
  unfold EvalReport.describe at h
  cases herror : result.error with
  | some error =>
    rw [herror] at h
    obtain rfl := List.mem_singleton.mp h
    exact List.prefix_append _ _
  | none =>
    rw [herror] at h
    obtain ⟨check, -, rfl⟩ := List.mem_map.mp h
    rw [List.append_assoc (result.caseId ++ lit ": ")]
    exact List.prefix_append _ _

/-- `describe` says nothing of a case that passed. -/
theorem describe_of_passed (h : result.passed = true) : EvalReport.describe result = [] := by
  rw [CaseResult.passed, Bool.and_eq_true, Bool.and_eq_true, Option.isNone_iff_eq_none,
    List.all_eq_true] at h
  obtain ⟨⟨herror, -⟩, hall⟩ := h
  rw [EvalReport.describe, herror]
  simpa [CaseResult.failures, List.filter_eq_nil_iff] using hall

/-- A result of a run that has no error has the verdict of some check. -/
theorem Told.checked {a : Attempt Output} (h : Told runner a result) (herror : result.error = none) :
    result.checks ≠ [] := by
  intro hnone
  cases hending : a.2.ending with
  | late => simp [h.timeout.mpr (.inl hending)] at herror
  | ownTimeout => simp [h.timeout.mpr (.inr hending)] at herror
  | raised name isException =>
    cases isException with
    | false => exact h.caught name hending
    | true => simp [h.raised.mpr ⟨name, hending⟩] at herror
  | returned output =>
    have hlength := (h.returned output hending).2.length_eq
    rw [hnone, List.length_nil, List.length_eq_zero_iff] at hlength
    exact runner.nonempty hlength

/-- Every run is `Reported`. -/
theorem reported (runner : EvaluationRunner σ Output) (suite : EvalSuite) (s : σ) :
    Reported runner suite s := by
  -- A run that ends with a report has judged every attempt, in order
  have hreport (report : EvalReport) (h : (runner.run suite s).1.1 = .ok report) :
      report.suite = suite.name.val ∧
        List.Forall₂ (Told runner) (attempts runner.target s suite.cases) report.results := by
    rw [run_fst] at h
    cases hcases : (runner.runCases s suite.cases).1.1 with
    | error name =>
      rw [hcases] at h
      cases h
    | ok results =>
      rw [hcases] at h
      obtain rfl := Except.ok.inj h
      exact ⟨rfl, runCases_ok hcases⟩
  constructor
  case escaped =>
    rw [← runCases_error, run_fst]
    cases (runner.runCases s suite.cases).1.1 <;> simp [Except.map]
  case told => exact hreport
  case described =>
    intro report h
    have htold := (hreport report h).2
    -- A failed case has a line of its own, for something was checked or it was errored
    have hdescribed (result : CaseResult) (hresult : result ∈ report.results)
        (hfailed : result.passed = false) : EvalReport.describe result ≠ [] := by
      obtain ⟨a, -, ha⟩ := htold.exists_of_mem_right hresult
      exact describe_ne_nil hfailed ha.checked
    constructor
    · intro result hresult
      constructor
      · intro hfailed
        obtain ⟨line, hline⟩ := List.exists_mem_of_ne_nil _ (hdescribed result hresult hfailed)
        refine ⟨line, List.mem_flatMap.mpr ⟨result, ?_, hline⟩, prefix_of_mem_describe hline, hline⟩
        exact List.mem_filter.mpr ⟨hresult, by simp [hfailed]⟩
      · rintro ⟨line, -, -, hline⟩
        rw [Bool.eq_false_iff]
        intro hpassed
        rw [describe_of_passed hpassed] at hline
        cases hline
    · rw [EvalReport.describeFailures, List.flatMap_eq_nil_iff, EvalReport.passed,
        EvalReport.total, List.countP_eq_length]
      constructor
      · intro hnone result hresult
        by_contra hfailed
        rw [Bool.not_eq_true] at hfailed
        refine hdescribed result hresult hfailed (hnone result ?_)
        exact List.mem_filter.mpr ⟨hresult, by simp [hfailed]⟩
      · intro hall result hresult
        exact describe_of_passed (hall result (List.mem_filter.mp hresult).1)

end Run

/-! ## Runs with the shipped checks -/

/-- The checks a suite is shipped with, and what they are made of. -/
inductive Shipped
  | fieldEquals (field : Text) (expectation : Option Text)
  | fieldIn (field : PyStr) (allowed : { values : List PyValue // values ≠ [] })
  | textContainsAll (field : PyStr)
  | textContainsNone (field : PyStr)
  | fieldIsNotEmpty (field : PyStr)

namespace Shipped

def check (printer : Printer) : Shipped → Check EvalOutput
  | fieldEquals field expectation => NexaAssist.fieldEquals printer field expectation
  | fieldIn field allowed => NexaAssist.fieldIn printer field allowed
  | textContainsAll field => NexaAssist.textContainsAll printer field
  | textContainsNone field => NexaAssist.textContainsNone printer field
  | fieldIsNotEmpty field => NexaAssist.fieldIsNotEmpty field

/-- The terms of a case are texts, and each is in a field's text, or none is. -/
def HasTerms (printer : Printer) (c : EvalCase) (expectation text : PyStr) (present : Bool) : Prop :=
  ∃ terms : List PyStr,
    iterate ((PyDict.get expectation c.expectations).getD (.tuple [])) = some (terms.map .str) ∧
      ∀ term ∈ terms, PyStr.isIn (printer.table.lower term) text = present

/-- What a check asks of an output. -/
def Holds (printer : Printer) (c : EvalCase) (output : EvalOutput) : Shipped → Prop
  | fieldEquals field expectation => ∃ expected,
      PyDict.get (expectation.getD field).val c.expectations = some expected ∧
        valueEq (output.read field.val) expected = true
  | fieldIn field allowed => ∃ value ∈ allowed.val, pyEq (output.read field) value = true
  | textContainsAll field =>
      HasTerms printer c (lit "contains") (printer.lowered (output.read field)) true
  | textContainsNone field =>
      HasTerms printer c (lit "forbidden") (printer.lowered (output.read field)) false
  | fieldIsNotEmpty field =>
      output.read field ∉ [.none, .str [], .list [], .tuple [], .dict []]

end Shipped

/-- A check ends with a verdict for what it asks, and lets nothing but an `Exception` out. -/
structure Decides (check : Check Output) (c : EvalCase) (output : Output) (holds : Prop) : Prop where
  passes : (∃ result, check.evaluate c output = .returned result ∧ result.ok = true) ↔ holds
  contained : ∀ name, check.evaluate c output ≠ .raised name false

section Shipped

variable {printer : Printer} {c : EvalCase} {output : EvalOutput} {text name detail : PyStr}
  {expectation field verb : PyStr} {present : Bool} {values : List PyValue}

/-- A check that passes decides what holds. -/
theorem Decides.of_passed {check : Check Output} {c : EvalCase} {output : Output} {holds : Prop}
    (hholds : holds) (hevaluate : ∃ name, passedCheck name = check.evaluate c output) :
    Decides check c output holds := by
  obtain ⟨name, hevaluate⟩ := hevaluate
  constructor
  case passes => simp [← hevaluate, passedCheck, CheckResult.ok, hholds]
  case contained => simp [← hevaluate, passedCheck]

/-- A check that fails decides what does not hold. -/
theorem Decides.of_failed {check : Check Output} {c : EvalCase} {output : Output} {holds : Prop}
    (hholds : ¬holds) (hevaluate : ∃ name detail, failedCheck name detail = check.evaluate c output) :
    Decides check c output holds := by
  obtain ⟨name, detail, hevaluate⟩ := hevaluate
  constructor
  case passes => simp [← hevaluate, failedCheck, CheckResult.ok, hholds]
  case contained => simp [← hevaluate, failedCheck]

/-- A list of values is one of texts just if its head is a text and its tail is one of texts. -/
theorem exists_texts_cons {term : PyStr} {p : PyStr → Prop} :
    (∃ terms : List PyStr, PyValue.str term :: values = terms.map .str ∧ ∀ t ∈ terms, p t) ↔
      p term ∧ ∃ terms : List PyStr, values = terms.map .str ∧ ∀ t ∈ terms, p t := by
  constructor
  · rintro ⟨terms, hterms, hall⟩
    cases terms with
    | nil => cases hterms
    | cons first rest =>
      obtain ⟨hfirst, hrest⟩ := List.cons.inj hterms
      obtain rfl := PyValue.str.inj hfirst
      obtain ⟨hterm, hall⟩ := List.forall_mem_cons.mp hall
      exact ⟨hterm, rest, hrest, hall⟩
  · rintro ⟨hterm, rest, rfl, hall⟩
    exact ⟨term :: rest, rfl, List.forall_mem_cons.mpr ⟨hterm, hall⟩⟩

/-- `termsFound` is empty where every term is a text, and none is as asked. -/
theorem termsFound_eq_nil : termsFound printer text present values = .ok [] ↔
    ∃ terms : List PyStr, values = terms.map .str ∧
      ∀ term ∈ terms, PyStr.isIn (printer.table.lower term) text = !present := by
  induction values with
  | nil => simp [termsFound]
  | cons value values ih =>
    cases value with
    | str term =>
      rw [termsFound, exists_texts_cons, ← ih]
      cases termsFound printer text present values with
      | error exception => simp [bind, Except.bind]
      | ok found =>
        have hnot : PyStr.isIn (printer.table.lower term) text = !present ↔
            ¬PyStr.isIn (printer.table.lower term) text = present := by
          cases PyStr.isIn (printer.table.lower term) text <;> cases present <;> decide
        rw [hnot]
        by_cases hterm : PyStr.isIn (printer.table.lower term) text = present <;>
          simp [bind, Except.bind, hterm]
    | _ =>
      -- `.lower()` of what is no text raises
      simp only [termsFound, reduceCtorEq, false_iff]
      rintro ⟨terms, hterms, -⟩
      cases terms <;> cases hterms

/-- A check for terms decides whether the terms of the case are as it asks. -/
theorem noTerms_decides : Decides (noTerms printer name verb expectation field present) c output
    (Shipped.HasTerms printer c expectation (printer.lowered (output.read field)) !present) := by
  have hfound : termsOf printer expectation field present c output = .ok [] ↔
      Shipped.HasTerms printer c expectation (printer.lowered (output.read field)) !present := by
    unfold termsOf Shipped.HasTerms
    split
    · rename_i hiterate
      simp [hiterate]
    · rename_i values hiterate
      simp only [hiterate, termsFound_eq_nil, Option.some_inj]
  cases hterms : termsOf printer expectation field present c output with
  | error exception =>
    have hevaluate : (noTerms printer name verb expectation field present).evaluate c output =
        .raised exception true := by
      simp only [noTerms, hterms]
    rw [hterms] at hfound
    constructor
    case passes => simp [hevaluate, ← hfound]
    case contained => simp [hevaluate]
  | ok terms =>
    rw [hterms, Except.ok.injEq] at hfound
    cases terms with
    | nil =>
      apply Decides.of_passed (hfound.mp rfl)
      simp only [noTerms, hterms, exists_apply_eq_apply]
    | cons first rest =>
      apply Decides.of_failed (hfound.not.mp (List.cons_ne_nil _ _))
      simp only [noTerms, hterms, exists_apply_eq_apply2]

/-- Every shipped check decides what it asks. -/
theorem Shipped.decides (shipped : Shipped) :
    Decides (shipped.check printer) c output (shipped.Holds printer c output) := by
  cases shipped with
  | fieldEquals field expectation =>
    cases hget : PyDict.get (expectation.getD field).val c.expectations with
    | none =>
      apply Decides.of_failed (by simp [Shipped.Holds, hget])
      simp only [Shipped.check, NexaAssist.fieldEquals, hget, exists_apply_eq_apply2]
    | some expected =>
      by_cases heq : valueEq (output.read field.val) expected = true
      · apply Decides.of_passed ⟨expected, hget, heq⟩
        simp only [Shipped.check, NexaAssist.fieldEquals, hget, if_pos heq, exists_apply_eq_apply]
      · apply Decides.of_failed (by simp [Shipped.Holds, hget, heq])
        simp only [Shipped.check, NexaAssist.fieldEquals, hget, if_neg heq, exists_apply_eq_apply2]
  | fieldIn field allowed =>
    by_cases hany : allowed.val.any (pyEq (output.read field)) = true
    · apply Decides.of_passed (List.any_eq_true.mp hany)
      simp only [Shipped.check, NexaAssist.fieldIn, if_pos hany, exists_apply_eq_apply]
    · apply Decides.of_failed (mt List.any_eq_true.mpr hany)
      simp only [Shipped.check, NexaAssist.fieldIn, if_neg hany, exists_apply_eq_apply2]
  | textContainsAll field => exact noTerms_decides
  | textContainsNone field => exact noTerms_decides
  | fieldIsNotEmpty field =>
    by_cases hempty : output.read field ∈ [.none, .str [], .list [], .tuple [], .dict []]
    · apply Decides.of_failed (not_not_intro hempty)
      simp only [List.mem_cons, List.not_mem_nil, or_false] at hempty
      obtain hread | hread | hread | hread | hread := hempty <;>
        simp only [Shipped.check, NexaAssist.fieldIsNotEmpty, hread, exists_apply_eq_apply2]
    · apply Decides.of_passed hempty
      simp only [Shipped.check, NexaAssist.fieldIsNotEmpty]
      split <;> simp_all

/-- What a run with the shipped checks comes to. -/
structure ShippedReported (printer : Printer) (shipped : List Shipped)
    (runner : EvaluationRunner σ EvalOutput) (suite : EvalSuite) (s : σ) : Prop where
  /-- Only the target can end it early. -/
  escaped : (∃ name, (runner.run suite s).1.1 = .error name) ↔
    ∃ a ∈ attempts runner.target s suite.cases, ∃ name, a.2.ending = .raised name false
  /-- A case passes where the target returned what every check asks. -/
  passed : ∀ report, (runner.run suite s).1.1 = .ok report →
    List.Forall₂ (fun a result => result.passed = true ↔ ∃ output, a.2.ending = .returned output ∧
        ∀ check ∈ shipped, check.Holds printer a.1 output)
      (attempts runner.target s suite.cases) report.results

/-- A run with the shipped checks passes the cases whose outputs are as the checks ask. -/
theorem shipped_reported {shipped : List Shipped} (runner : EvaluationRunner σ EvalOutput)
    (suite : EvalSuite) (s : σ) (hchecks : runner.checks = shipped.map (Shipped.check printer)) :
    ShippedReported printer shipped runner suite s := by
  have hreported := reported runner suite s
  constructor
  case escaped =>
    rw [hreported.escaped]
    apply exists_congr
    intro a
    apply and_congr_right'
    apply or_iff_left
    rintro ⟨output, -, check, hcheck, name, hraised⟩
    rw [hchecks] at hcheck
    obtain ⟨shipped, -, rfl⟩ := List.mem_map.mp hcheck
    exact (shipped.decides).contained name hraised
  case passed =>
    intro report h
    apply (hreported.told report h).2.imp
    intro a result htold
    rw [htold.passed, Green]
    apply exists_congr
    intro output
    apply and_congr_right'
    rw [hchecks, List.forall_mem_map]
    exact forall₂_congr fun check _ => check.decides.passes

end Shipped

/-! ## Comparing runs -/

/-- A run of a suite: who runs it, and what its target is like by then. -/
structure Evaluation (σ Output : Type) where
  runner : EvaluationRunner σ Output
  suite : EvalSuite
  state : σ

namespace Evaluation

variable (e : Evaluation σ Output)

def attempts : List (Attempt Output) := EvaluationRuns.attempts e.runner.target e.state e.suite.cases

def report : Evaluated EvalReport := (e.runner.run e.suite e.state).1.1

/-- A case of the run was green. -/
def IsGreen (id : PyStr) : Prop := ∃ a ∈ e.attempts, a.1.id.val = id ∧ Green e.runner.checks a

/-- It was run at all. -/
def IsRun (id : PyStr) : Prop := ∃ a ∈ e.attempts, a.1.id.val = id

end Evaluation

/-- Every case is still run, and those that were green still are. -/
def Kept (e e' : Evaluation σ Output) : Prop :=
  ∀ id, (e.IsRun id → e'.IsRun id) ∧ (e.IsGreen id → e'.IsGreen id)

/-- Two reports can be compared, and the comparison is clean. -/
def Clean (r r' : EvalReport) : Prop :=
  ∃ summary, compareReports r r' = .ok summary ∧ summary.clean = true

/-- What a comparison of two runs says. -/
structure Compared (e e' : Evaluation σ Output) (summary : RegressionSummary) : Prop where
  regressed : ∀ id, id ∈ summary.regressed ↔ e.IsGreen id ∧ ¬e'.IsGreen id
  fixed : ∀ id, id ∈ summary.fixed ↔ e'.IsGreen id ∧ ¬e.IsGreen id
  added : ∀ id, id ∈ summary.added ↔ e'.IsRun id ∧ ¬e.IsRun id
  removed : ∀ id, id ∈ summary.removed ↔ e.IsRun id ∧ ¬e'.IsRun id
  clean : summary.clean = true ↔ Kept e e'
  passed : summary.current.passed + summary.regressed.length =
    summary.baseline.passed + summary.fixed.length
  total : summary.current.total + summary.removed.length =
    summary.baseline.total + summary.added.length

section Compare

variable {e e' : Evaluation σ Output} {r r' : EvalReport} {ids ids' : List PyStr} {id : PyStr}

/-- `sortedIds` has the ids it is given. -/
theorem mem_sortedIds : id ∈ sortedIds ids ↔ id ∈ ids := by
  rw [sortedIds, List.mem_insertionSort, List.mem_dedup]

/-- `sortedIds` of a difference has the ids that are in the first list alone. -/
theorem mem_sortedIds_filter : id ∈ sortedIds (ids.filter fun id => id ∉ ids') ↔
    id ∈ ids ∧ id ∉ ids' := by
  rw [mem_sortedIds, List.mem_filter, decide_eq_true_eq]

/-- A difference is empty just if the first ids are among the second. -/
theorem isEmpty_sortedIds_filter : (sortedIds (ids.filter fun id => id ∉ ids')).isEmpty = true ↔
    ∀ id ∈ ids, id ∈ ids' := by
  rw [List.isEmpty_iff, List.eq_nil_iff_forall_not_mem]
  simp only [mem_sortedIds_filter, not_and, not_not]

/-- What two sets have on their own accounts for the difference in their sizes. -/
theorem length_balance (h : ids.Nodup) (h' : ids'.Nodup) :
    ids'.length + (sortedIds (ids.filter fun id => id ∉ ids')).length =
      ids.length + (sortedIds (ids'.filter fun id => id ∉ ids)).length := by
  have hsorted (l l' : List PyStr) (hl : l.Nodup) :
      (sortedIds (l.filter fun id => id ∉ l')).length = (l.filter fun id => id ∉ l').length := by
    rw [sortedIds, List.length_insertionSort, List.dedup_eq_self.mpr (hl.filter _)]
  have hboth : (ids.filter fun id => id ∈ ids').length = (ids'.filter fun id => id ∈ ids).length := by
    apply List.Perm.length_eq
    rw [List.perm_ext_iff_of_nodup (h.filter _) (h'.filter _)]
    intro id
    simp [and_comm]
  have hsplit (l l' : List PyStr) :
      l.length = (l.filter fun id => id ∈ l').length + (l.filter fun id => id ∉ l').length := by
    rw [← List.countP_eq_length_filter, ← List.countP_eq_length_filter,
      List.length_eq_countP_add_countP fun id => id ∈ l']
    simp
  have hfirst := hsplit ids ids'
  have hsecond := hsplit ids' ids
  rw [hsorted ids ids' h, hsorted ids' ids h']
  omega

/-- `attempts` makes one attempt for each case, in order. -/
theorem map_id_attempts (target : EvalTarget σ Output) (s : σ) (cases : List EvalCase) :
    (EvaluationRuns.attempts target s cases).map (fun a => a.1.id.val) =
      cases.map fun c => c.id.val := by
  induction cases generalizing s with
  | nil => rfl
  | cons c cases ih => rw [EvaluationRuns.attempts, List.map_cons, List.map_cons, ih]

/-- The ids of a report are those of the cases of its suite. -/
theorem ids_eq (h : e.report = .ok r) : r.ids = e.suite.cases.map fun c => c.id.val := by
  obtain ⟨-, htold⟩ := (reported e.runner e.suite e.state).told r h
  rw [← map_id_attempts e.runner.target e.state]
  exact htold.map_eq fun _ _ ha => ha.caseId

/-- The ids of a report are those of the cases that were run. -/
theorem mem_ids (h : e.report = .ok r) : id ∈ r.ids ↔ e.IsRun id := by
  rw [ids_eq h, ← map_id_attempts e.runner.target e.state, List.mem_map]
  rfl

/-- `passingIds` of a report are those of the cases that passed. -/
theorem mem_passingIds (h : e.report = .ok r) : id ∈ r.passingIds ↔ e.IsGreen id := by
  obtain ⟨-, htold⟩ := (reported e.runner e.suite e.state).told r h
  constructor
  · intro hid
    obtain ⟨result, hresult, rfl⟩ := List.mem_map.mp hid
    obtain ⟨hmem, hpassed⟩ := List.mem_filter.mp hresult
    obtain ⟨a, ha, hatold⟩ := htold.exists_of_mem_right hmem
    exact ⟨a, ha, hatold.caseId.symm, hatold.passed.mp hpassed⟩
  · rintro ⟨a, ha, rfl, hgreen⟩
    obtain ⟨result, hresult, hatold⟩ := htold.exists_of_mem_left ha
    rw [← hatold.caseId]
    exact List.mem_map_of_mem (List.mem_filter.mpr ⟨hresult, hatold.passed.mpr hgreen⟩)

/-- No id is in a report twice. -/
theorem nodup_ids (h : e.report = .ok r) : r.ids.Nodup := by
  rw [ids_eq h]
  exact e.suite.distinct

/-- No id is twice among the `passingIds` of a report. -/
theorem nodup_passingIds (h : e.report = .ok r) : r.passingIds.Nodup :=
  (List.filter_sublist.map _).nodup (nodup_ids h)

/-- A report has as many `passingIds` as it counts in `passed`. -/
theorem length_passingIds (report : EvalReport) : report.passingIds.length = report.passed := by
  rw [EvalReport.passingIds, List.length_map, EvalReport.passed, List.countP_eq_length_filter]

/-- `ofReports` compares two runs as `Compared` says. -/
theorem compared_ofReports (h : e.report = .ok r) (h' : e'.report = .ok r') :
    Compared e e' (.ofReports r r') := by
  constructor
  case regressed =>
    intro id
    rw [RegressionSummary.ofReports, mem_sortedIds_filter, mem_passingIds h, mem_passingIds h']
  case fixed =>
    intro id
    rw [RegressionSummary.ofReports, mem_sortedIds_filter, mem_passingIds h, mem_passingIds h']
  case added =>
    intro id
    rw [RegressionSummary.ofReports, mem_sortedIds_filter, mem_ids h, mem_ids h']
  case removed =>
    intro id
    rw [RegressionSummary.ofReports, mem_sortedIds_filter, mem_ids h, mem_ids h']
  case clean =>
    rw [RegressionSummary.clean, Bool.and_eq_true, RegressionSummary.ofReports,
      isEmpty_sortedIds_filter, isEmpty_sortedIds_filter, Kept]
    simp only [mem_passingIds h, mem_passingIds h', mem_ids h, mem_ids h']
    exact ⟨fun hclean id => ⟨hclean.2 id, hclean.1 id⟩,
      fun hkept => ⟨fun id => (hkept id).2, fun id => (hkept id).1⟩⟩
  case passed =>
    have hbalance := length_balance (nodup_passingIds h) (nodup_passingIds h')
    rw [length_passingIds, length_passingIds] at hbalance
    exact hbalance
  case total =>
    have hbalance := length_balance (nodup_ids h) (nodup_ids h')
    have hlength (report : EvalReport) : report.ids.length = report.total := List.length_map _
    rw [hlength, hlength] at hbalance
    exact hbalance

/-- What is kept twice is kept. -/
theorem Kept.trans {e'' : Evaluation σ Output} (h : Kept e e') (h' : Kept e' e'') : Kept e e'' :=
  fun id => ⟨fun hrun => (h' id).1 ((h id).1 hrun), fun hgreen => (h' id).2 ((h id).2 hgreen)⟩

/-- A clean comparison keeps every case and every pass. -/
theorem kept_of_clean (h : e.report = .ok r) (h' : e'.report = .ok r') (hclean : Clean r r') :
    Kept e e' := by
  obtain ⟨summary, hcompare, hclean⟩ := hclean
  rw [compareReports] at hcompare
  split at hcompare
  · cases hcompare
  · obtain rfl := Except.ok.inj hcompare
    exact (compared_ofReports h h').clean.mp hclean

end Compare

/-- What comparisons of runs say, and what a chain of clean ones does. -/
structure Sound (evaluations : List (Evaluation σ Output)) (reports : List EvalReport) : Prop where
  compared : ∀ p ∈ evaluations.zip reports, ∀ p' ∈ evaluations.zip reports, ∀ summary,
    compareReports p.2 p'.2 = .ok summary → Compared p.1 p'.1 summary
  /-- Whatever was green in a run is green in every later one. -/
  kept : reports.IsChain Clean → evaluations.Pairwise Kept

/-- A chain of comparisons is `Sound`: no regression slips through clean ones. -/
theorem comparisons_sound (evaluations : List (Evaluation σ Output)) (reports : List EvalReport)
    (hreports : List.Forall₂ (fun e r => e.report = .ok r) evaluations reports) :
    Sound evaluations reports := by
  constructor
  case compared =>
    intro p hp p' hp' summary hsummary
    rw [compareReports] at hsummary
    split at hsummary
    · cases hsummary
    · obtain rfl := Except.ok.inj hsummary
      exact compared_ofReports (List.forall₂_zip hreports hp) (List.forall₂_zip hreports hp')
  case kept =>
    intro hclean
    have htrans : IsTrans (Evaluation σ Output) Kept := ⟨fun _ _ _ => Kept.trans⟩
    apply List.isChain_iff_pairwise.mp
    induction hreports with
    | nil => exact .nil
    | cons hfirst hrest ih =>
      cases hrest with
      | nil => exact .singleton _
      | cons hsecond hothers =>
        rw [List.isChain_cons_cons] at hclean ⊢
        exact ⟨kept_of_clean hfirst hsecond hclean.1, ih hclean.2⟩

/-! A suite of two cases, whose target replies as it is told to until it falls silent. -/

def letterId (letter : PyStr) : PyStr := lit "letter " ++ letter

/-- No letter has an empty id. -/
theorem letterId_ne_nil (letter : PyStr) : letterId letter ≠ [] :=
  List.append_ne_nil_of_left_ne_nil (by decide) letter

def letterCase (letter : PyStr) : EvalCase where
  id := ⟨letterId letter, letterId_ne_nil letter⟩
  inputs := [(lit "reply", .str letter)]
  expectations := []

def letterCases : List EvalCase := [letterCase (lit "a"), letterCase (lit "b")]

/-- The letters have ids of their own. -/
theorem letterCases_distinct : (letterCases.map fun c => c.id.val).Nodup := by decide

/-- The suite of the letters has cases. -/
theorem letterCases_ne_nil : letterCases ≠ [] := List.cons_ne_nil _ _

/-- It has so many replies left, and falls silent then. -/
def echo : EvalTarget Nat EvalOutput where
  name := lit "echo"
  run left inputs :=
    ({ ending := .returned (.object (if left = 0 then [] else inputs)), started := 0, finished := 0 },
      left - 1)

/-- The suite of the letters has a check. -/
theorem replyIsNotEmpty_ne_nil : [fieldIsNotEmpty (lit "reply")] ≠ [] := List.cons_ne_nil _ _

/-- The suite has a name. -/
theorem letters_ne_nil : lit "letters" ≠ [] := by decide

def letters (left : Nat) : Evaluation Nat EvalOutput where
  runner :=
    { target := echo, checks := [fieldIsNotEmpty (lit "reply")], timeout := lit "30"
      nonempty := replyIsNotEmpty_ne_nil }
  suite :=
    { name := ⟨lit "letters", letters_ne_nil⟩, cases := letterCases
      distinct := letterCases_distinct, nonempty := letterCases_ne_nil }
  state := left

def letterResult (letter : PyStr) (outcome : CheckOutcome) (detail : Option PyStr) : CaseResult where
  caseId := letterId letter
  checks := [{ check := lit "not_empty:reply", outcome, detail }]
  error := none
  durationMs := elapsedMs
    ({ ending := .returned (.object []), started := 0, finished := 0 } : TargetRun EvalOutput)

/-- Both cases pass. -/
def bothReport : EvalReport where
  suite := lit "letters"
  results := [letterResult (lit "a") .passed none, letterResult (lit "b") .passed none]

/-- The second case has regressed. -/
def firstReport : EvalReport where
  suite := lit "letters"
  results := [letterResult (lit "a") .passed none,
    letterResult (lit "b") .failed (some (lit "field was empty"))]

/-- Two runs of two cases, the second of which has regressed, and what their comparison says. -/
theorem comparisons_sound_letters : Sound [letters 2, letters 1] [bothReport, firstReport] := by
  apply comparisons_sound
  exact .cons rfl (.cons rfl .nil)

end NexaAssist.Spec.EvaluationRuns
