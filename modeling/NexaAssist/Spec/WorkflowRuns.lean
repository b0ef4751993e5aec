import Mathlib.Data.List.Dedup
import NexaAssist.Workflows.Execution

/-!
# Runs of a workflow

What a run did is a list of calls, each with the outputs it found. A valid workflow gives a
name to one step only, so what a name stands for is settled by the calls before.
-/

namespace NexaAssist.Spec.WorkflowRuns

open PyJson WorkflowRunner

/-- A step that was run: the outputs there were before it, the parameters its tool was called
    with, and its result. -/
structure Call where
  step : WorkflowStep
  outputs : PyDict PyStr PyValue
  params : PyDict PyStr PyValue
  result : ToolResult

/-- The record of a call. -/
def Call.record (call : Call) : StepRecord := WorkflowRunner.record call.step call.result

def Call.ok (call : Call) : Prop := call.result.outcome = .ok

instance (call : Call) : Decidable call.ok := inferInstanceAs (Decidable (_ = _))

/-- Running the steps from number `n` on makes these calls, leaves these outputs, and ends at a
    step that failed, or at none. -/
inductive Ran (executor : Nat → TimedExecutor) : Nat → PyDict PyStr PyValue →
    List WorkflowStep → List Call → PyDict PyStr PyValue → Option PyStr → Prop
  | done (n : Nat) (outputs : PyDict PyStr PyValue) : Ran executor n outputs [] [] outputs none
  | succeeded {n : Nat} {outputs final : PyDict PyStr PyValue} {step : WorkflowStep}
      {rest : List WorkflowStep} {result : ToolResult} {calls : List Call} {failed : Option PyStr}
      (executed : (executor n).execute step.tool (some (resolve step outputs)) = .ok result)
      (outcome : result.outcome = .ok)
      (more : Ran executor (n + 1) (PyDict.set step.id result.output outputs) rest calls final
        failed) :
      Ran executor n outputs (step :: rest)
        ({ step, outputs, params := resolve step outputs, result } :: calls) final failed
  | skipped {n : Nat} {outputs final : PyDict PyStr PyValue} {step : WorkflowStep}
      {rest : List WorkflowStep} {result : ToolResult} {calls : List Call} {failed : Option PyStr}
      (executed : (executor n).execute step.tool (some (resolve step outputs)) = .ok result)
      (outcome : result.outcome ≠ .ok) (optional : step.optional = true)
      (more : Ran executor (n + 1) outputs rest calls final failed) :
      Ran executor n outputs (step :: rest)
        ({ step, outputs, params := resolve step outputs, result } :: calls) final failed
  | failed {n : Nat} {outputs : PyDict PyStr PyValue} {step : WorkflowStep}
      {rest : List WorkflowStep} {result : ToolResult}
      (executed : (executor n).execute step.tool (some (resolve step outputs)) = .ok result)
      (outcome : result.outcome ≠ .ok) (required : step.optional = false) :
      Ran executor n outputs (step :: rest)
        [{ step, outputs, params := resolve step outputs, result }] outputs (some step.id)

variable {executor : Nat → TimedExecutor}

/-- `runSteps` makes calls as `Ran` says, and keeps a record of each. -/
theorem ran_of_runSteps {steps : List WorkflowStep} {s s' : Locals} (hnone : s.failedStep = none)
    (h : runSteps executor steps s = .ok s') : ∃ calls,
    Ran executor s.records.length s.outputs steps calls s'.outputs s'.failedStep ∧
      s'.records = s.records ++ calls.map Call.record := by
  -- Induction on the steps, as `runSteps` recurses
  induction steps generalizing s with
  | nil =>
    obtain rfl := Except.ok.inj h
    refine ⟨[], ?_, by simp⟩
    rw [hnone]
    exact .done _ _
  | cons step rest ih =>
    rw [runSteps] at h
    cases hexecute : (executor s.records.length).execute step.tool
        (some (resolve step s.outputs)) with
    | error exception =>
      rw [hexecute] at h
      exact nomatch h
    | ok result =>
      simp only [hexecute, bind, Except.bind] at h
      have hlength : (s.records ++ [WorkflowRunner.record step result]).length =
          s.records.length + 1 := by simp
      split at h
      · rename_i hok
        obtain ⟨calls, hran, hrecords⟩ := ih (s := { s with
          outputs := PyDict.set step.id result.output s.outputs
          records := s.records ++ [WorkflowRunner.record step result] }) hnone h
        rw [hlength] at hran
        exact ⟨_, .succeeded hexecute hok hran, by rw [hrecords]; simp [Call.record]⟩
      -- A step that failed ends the run unless it is optional
      · rename_i hok
        split at h
        · rename_i hoptional
          obtain ⟨calls, hran, hrecords⟩ := ih (s := { s with
            records := s.records ++ [WorkflowRunner.record step result] }) hnone h
          rw [hlength] at hran
          exact ⟨_, .skipped hexecute hok hoptional hran, by rw [hrecords]; simp [Call.record]⟩
        · rename_i hrequired
          obtain rfl := Except.ok.inj h
          exact ⟨_, .failed hexecute hok (Bool.not_eq_true _ |>.mp hrequired), by simp [Call.record]⟩

/-! ## What the calls are -/

/-- The steps that were called are the first ones of the workflow. -/
theorem Ran.steps_prefix {n : Nat} {outputs final : PyDict PyStr PyValue}
    {steps : List WorkflowStep} {calls : List Call} {failed : Option PyStr}
    (h : Ran executor n outputs steps calls final failed) : calls.map Call.step <+: steps := by
  induction h with
  | done => exact List.prefix_rfl
  | succeeded _ _ _ ih => exact List.cons_prefix_cons.mpr ⟨rfl, ih⟩
  | skipped _ _ _ _ ih => exact List.cons_prefix_cons.mpr ⟨rfl, ih⟩
  | failed => exact List.cons_prefix_cons.mpr ⟨rfl, List.nil_prefix⟩

/-- No step fails exactly when every step is run and those that do not succeed are optional. -/
theorem Ran.failed_eq_none_iff {n : Nat} {outputs final : PyDict PyStr PyValue}
    {steps : List WorkflowStep} {calls : List Call} {failed : Option PyStr}
    (h : Ran executor n outputs steps calls final failed) : failed = none ↔
    calls.map Call.step = steps ∧ ∀ call ∈ calls, call.step.optional = false → call.ok := by
  induction h with
  | done => simp
  | succeeded _ hok _ ih => simp [ih, Call.ok, hok]
  | skipped _ _ hoptional _ ih => simp [ih, Call.ok, hoptional]
  | failed _ hok hrequired => simp [Call.ok, hok, hrequired]

/-- Where a step failed, it is that of the last call. -/
theorem Ran.failed_eq_some {n : Nat} {outputs final : PyDict PyStr PyValue}
    {steps : List WorkflowStep} {calls : List Call} {failed : Option PyStr}
    (h : Ran executor n outputs steps calls final failed) {id : PyStr} (hfailed : failed = some id) :
    ∃ call ∈ calls.getLast?, call.step.id = id ∧ ¬ call.ok := by
  induction h with
  | done => exact nomatch hfailed
  | succeeded _ _ _ ih =>
    obtain ⟨call, hcall, hid⟩ := ih hfailed
    exact ⟨call, by rw [List.getLast?_cons, Option.mem_def.mp hcall]; rfl, hid⟩
  | skipped _ _ _ _ ih =>
    obtain ⟨call, hcall, hid⟩ := ih hfailed
    exact ⟨call, by rw [List.getLast?_cons, Option.mem_def.mp hcall]; rfl, hid⟩
  | failed _ hok _ => exact ⟨_, rfl, Option.some.inj hfailed, hok⟩

/-- The final outputs are under the keys there were and the ids of the calls that were `ok`. -/
theorem Ran.mem_keys {n : Nat} {outputs final : PyDict PyStr PyValue}
    {steps : List WorkflowStep} {calls : List Call} {failed : Option PyStr}
    (h : Ran executor n outputs steps calls final failed) (key : PyStr) :
    key ∈ PyDict.keys final ↔
      key ∈ PyDict.keys outputs ∨ ∃ call ∈ calls, call.ok ∧ call.step.id = key := by
  induction h with
  | done => simp
  | succeeded _ hok _ ih =>
    rw [ih, PyDict.mem_keys_set]
    simp [Call.ok, hok, eq_comm, or_assoc, or_left_comm]
  | skipped _ hok _ _ ih => simp [ih, Call.ok, hok]
  | failed _ hok _ => simp [Call.ok, hok]

/-! ## What a name stands for -/

/-- What the names stand for, after some calls: the output of a call that succeeded, and what
    the caller supplied for any other name. -/
structure Env (inputs : PyDict PyStr PyValue) (before : List Call)
    (outputs : PyDict PyStr PyValue) : Prop where
  produced : ∀ call ∈ before, call.ok → PyDict.get call.step.id outputs = some call.result.output
  supplied : ∀ name, (∀ call ∈ before, call.step.id = name → ¬ call.ok) →
    PyDict.get name outputs = PyDict.get name inputs

/-- `Env` is kept when a call fails, which binds nothing. -/
theorem Env.skip {inputs outputs : PyDict PyStr PyValue} {before : List Call}
    (h : Env inputs before outputs) (call : Call) (hcall : ¬ call.ok) :
    Env inputs (before ++ [call]) outputs where
  produced other hother hok := by
    cases List.mem_append.mp hother with
    | inl hbefore => exact h.produced other hbefore hok
    | inr hlast =>
      rw [List.mem_singleton.mp hlast] at hok
      exact absurd hok hcall
  supplied name hname := h.supplied name fun other hother => hname other (List.mem_append_left _ hother)

/-- `Env` is kept when a call succeeds and its output is bound to the id of its step. -/
theorem Env.succeed {inputs outputs : PyDict PyStr PyValue} {before : List Call}
    (h : Env inputs before outputs) (call : Call)
    (hfresh : ∀ other ∈ before, other.step.id ≠ call.step.id) (hok : call.ok) :
    Env inputs (before ++ [call]) (PyDict.set call.step.id call.result.output outputs) where
  produced other hother hotherOk := by
    cases List.mem_append.mp hother with
    | inl hbefore =>
      rw [PyDict.get_set_ne (hfresh other hbefore)]
      exact h.produced other hbefore hotherOk
    | inr hlast => rw [List.mem_singleton.mp hlast, PyDict.get_set_self]
  supplied name hname := by
    have hne : name ≠ call.step.id := fun heq => hname call (by simp) heq.symm hok
    rw [PyDict.get_set_ne hne]
    exact h.supplied name fun other hother => hname other (List.mem_append_left _ hother)

/-- Each call of a loop finds the `Env` that the calls before it have left. -/
theorem Ran.env {n : Nat} {inputs outputs final : PyDict PyStr PyValue}
    {steps : List WorkflowStep} {calls : List Call} {failed : Option PyStr}
    (h : Ran executor n outputs steps calls final failed) (before : List Call)
    (henv : Env inputs before outputs)
    (hdistinct : (before.map (·.step.id) ++ steps.map (·.id)).Nodup)
    {earlier later : List Call} {call : Call} (hcalls : calls = earlier ++ call :: later) :
    Env inputs (before ++ earlier) call.outputs := by
  -- Induction on the run: the environment before a call comes of the calls before it
  induction h generalizing before earlier with
  | done => simp at hcalls
  | @succeeded n outputs final step rest result calls failed _ hok _ ih =>
    cases earlier with
    | nil =>
      obtain ⟨rfl, -⟩ := List.cons.inj hcalls
      simpa using henv
    | cons first earlier =>
      obtain ⟨rfl, htail⟩ := List.cons.inj hcalls
      -- The output is filed under an id that no earlier step has
      have hfresh : ∀ other ∈ before, other.step.id ≠ step.id := by
        intro other hother heq
        exact (List.nodup_append.mp hdistinct).2.2 _ (List.mem_map_of_mem hother) _
          List.mem_cons_self heq
      have hnext := ih _ (henv.succeed { step, outputs, params := resolve step outputs, result } hfresh hok)
        (by simpa using hdistinct) htail
      simpa using hnext
  | @skipped n outputs final step rest result calls failed _ hok _ _ ih =>
    cases earlier with
    | nil =>
      obtain ⟨rfl, -⟩ := List.cons.inj hcalls
      simpa using henv
    | cons first earlier =>
      obtain ⟨rfl, htail⟩ := List.cons.inj hcalls
      have hnext := ih _ (henv.skip { step, outputs, params := resolve step outputs, result } hok)
        (by simpa using hdistinct) htail
      simpa using hnext
  | failed =>
    cases earlier with
    | nil =>
      obtain ⟨rfl, -⟩ := List.cons.inj hcalls
      simpa using henv
    | cons first earlier => simp at hcalls

/-- The call of number `n` is what the executor of that number makes of it. -/
theorem Ran.executed {n : Nat} {outputs final : PyDict PyStr PyValue}
    {steps : List WorkflowStep} {calls : List Call} {failed : Option PyStr}
    (h : Ran executor n outputs steps calls final failed)
    {earlier later : List Call} {call : Call} (hcalls : calls = earlier ++ call :: later) :
    call.params = resolve call.step call.outputs ∧
      (executor (n + earlier.length)).execute call.step.tool (some call.params) =
        .ok call.result := by
  induction h generalizing earlier with
  | done => simp at hcalls
  | succeeded hexecuted _ _ ih =>
    cases earlier with
    | nil =>
      obtain ⟨rfl, -⟩ := List.cons.inj hcalls
      exact ⟨rfl, hexecuted⟩
    | cons first earlier =>
      rw [List.length_cons, Nat.add_comm earlier.length, ← Nat.add_assoc]
      exact ih (List.cons.inj hcalls).2
  | skipped hexecuted _ _ _ ih =>
    cases earlier with
    | nil =>
      obtain ⟨rfl, -⟩ := List.cons.inj hcalls
      exact ⟨rfl, hexecuted⟩
    | cons first earlier =>
      rw [List.length_cons, Nat.add_comm earlier.length, ← Nat.add_assoc]
      exact ih (List.cons.inj hcalls).2
  | failed hexecuted _ _ =>
    cases earlier with
    | nil =>
      obtain ⟨rfl, -⟩ := List.cons.inj hcalls
      exact ⟨rfl, hexecuted⟩
    | cons first earlier => simp at hcalls

/-! ## What validation says -/

/-- Steps that validation lets through are named apart, from each other and from the names
    seen before, and refer to names that come before them. -/
theorem validateSteps_ok {seen : List PyStr} {steps : List WorkflowStep}
    (h : validateSteps seen steps = .ok ()) :
    (steps.map (·.id)).Nodup ∧ (∀ step ∈ steps, step.id ∉ seen) ∧
    ∀ before step after, steps = before ++ step :: after →
      ∀ name ∈ step.references, name ∈ seen ∨ ∃ earlier ∈ before, earlier.id = name := by
  -- Induction on the steps, with the ids already seen
  induction steps generalizing seen with
  | nil => exact ⟨.nil, List.forall_mem_nil _, fun before step after heq => by simp at heq⟩
  | cons first rest ih =>
    rw [validateSteps] at h
    split at h
    · cases h
    split at h
    · cases h
    rename_i hfresh hknown
    obtain ⟨hnodup, hunseen, hrefers⟩ := ih h
    simp only [List.mem_cons, not_or] at hunseen
    refine ⟨?_, ?_, ?_⟩
    · rw [List.map_cons, List.nodup_cons]
      refine ⟨?_, hnodup⟩
      intro hmem
      obtain ⟨step, hstep, heq⟩ := List.mem_map.mp hmem
      exact (hunseen step hstep).1 heq
    · exact List.forall_mem_cons.mpr ⟨hfresh, fun step hstep => (hunseen step hstep).2⟩
    · intro before step after heq name hname
      cases before with
      | nil =>
        obtain ⟨rfl, -⟩ := List.cons.inj heq
        left
        by_contra hunknown
        apply hknown
        intro hnil
        have hmem : name ∈ first.unknown seen := by
          rw [WorkflowStep.unknown, List.mem_insertionSort, List.mem_dedup, List.mem_filter]
          exact ⟨hname, by simpa using hunknown⟩
        rw [hnil] at hmem
        cases hmem
      | cons second before =>
        obtain ⟨rfl, htail⟩ := List.cons.inj heq
        obtain hseen | ⟨earlier, hearlier, hid⟩ := hrefers before step after htail name hname
        · cases List.mem_cons.mp hseen with
          | inl hfirst => exact .inr ⟨first, List.mem_cons_self, hfirst.symm⟩
          | inr hseen => exact .inl hseen
        · exact .inr ⟨earlier, List.mem_cons_of_mem _ hearlier, hid⟩

/-- The steps of a `Workflow` have passed `validateSteps`. -/
theorem validate_steps (workflow : Workflow) :
    validateSteps workflow.inputs workflow.steps = .ok () := by
  have hvalid := workflow.valid
  unfold validateWorkflow at hvalid
  cases hnames : workflow.steps.forM WorkflowStep.validateNames with
  | error fault =>
    rw [hnames] at hvalid
    exact nomatch hvalid
  | ok _ =>
    simp only [hnames, bind, Except.bind] at hvalid
    split at hvalid
    · exact nomatch hvalid
    split at hvalid
    · exact nomatch hvalid
    · exact hvalid

/-- What the pre-check leaves out is a reference to a name that is there by then. -/
theorem unresolvedFrom_eq_nil {produced missing : List PyStr} {steps : List WorkflowStep}
    (h : unresolvedFrom produced missing steps = []) : missing = [] ∧
    ∀ before step after, steps = before ++ step :: after →
      ∀ name ∈ step.references, name ∈ produced ∨ ∃ earlier ∈ before, earlier.id = name := by
  induction steps generalizing produced missing with
  | nil => exact ⟨h, fun before step after heq => by simp at heq⟩
  | cons first rest ih =>
    rw [unresolvedFrom] at h
    obtain ⟨hmissing, hrefers⟩ := ih h
    obtain ⟨hmissing, hfirst⟩ := List.append_eq_nil_iff.mp hmissing
    refine ⟨hmissing, ?_⟩
    intro before step after heq name hname
    cases before with
    | nil =>
      obtain ⟨rfl, -⟩ := List.cons.inj heq
      have := List.filter_eq_nil_iff.mp hfirst name hname
      exact .inl (by simpa using this)
    | cons second before =>
      obtain ⟨rfl, htail⟩ := List.cons.inj heq
      obtain hproduced | ⟨earlier, hearlier, hid⟩ := hrefers before step after htail name hname
      · cases List.mem_cons.mp hproduced with
        | inl hfirst => exact .inr ⟨first, List.mem_cons_self, hfirst.symm⟩
        | inr hproduced => exact .inl hproduced
      · exact .inr ⟨earlier, List.mem_cons_of_mem _ hearlier, hid⟩

/-! ## Runs -/

/-- A run, and the calls it made. -/
structure Made (executor : Nat → TimedExecutor) (workflow : Workflow)
    (inputs : PyDict PyStr PyValue) (calls : List Call) (run : WorkflowRun)
    (outputs : PyDict PyStr PyValue) : Prop where
  ran : Ran executor 0 inputs workflow.steps calls outputs run.failedStep
  records : run.steps = calls.map Call.record
  completed : run.completed = run.failedStep.isNone

/-- What `run` returns was `Made` by some calls. -/
theorem made_of_run {workflow : Workflow} {inputs : Option (PyDict PyStr PyValue)}
    {run : WorkflowRun} {outputs : PyDict PyStr PyValue}
    (h : WorkflowRunner.run executor workflow inputs = .ok (run, outputs)) :
    ∃ calls, Made executor workflow (inputs.getD []) calls run outputs := by
  rw [WorkflowRunner.run] at h
  cases hsteps : runSteps executor workflow.steps
      { outputs := inputs.getD [], records := [], failedStep := none } with
  | error exception =>
    rw [hsteps] at h
    exact nomatch h
  | ok s =>
    rw [hsteps] at h
    obtain ⟨rfl, rfl⟩ := Prod.mk.inj (Except.ok.inj h)
    obtain ⟨calls, hran, hrecords⟩ := ran_of_runSteps rfl hsteps
    exact ⟨calls, hran, hrecords, rfl⟩

namespace Made

variable {workflow : Workflow} {inputs outputs : PyDict PyStr PyValue} {calls : List Call}
  {run : WorkflowRun}

/-- The steps have names of their own. -/
theorem ids_nodup (workflow : Workflow) : (workflow.steps.map (·.id)).Nodup :=
  (validateSteps_ok (validate_steps workflow)).1

/-- Each call of a run finds the `Env` that the calls before it have left. -/
theorem env (h : Made executor workflow inputs calls run outputs)
    {earlier later : List Call} {call : Call} (hcalls : calls = earlier ++ call :: later) :
    Env inputs earlier call.outputs := by
  have := h.ran.env [] ⟨nofun, fun _ _ => rfl⟩ (by simpa using ids_nodup workflow)
    hcalls
  simpa using this

/-- The steps in front of a call's step are those of the calls before it. -/
theorem steps_split (h : Made executor workflow inputs calls run outputs)
    {earlier later : List Call} {call : Call} (hcalls : calls = earlier ++ call :: later) :
    ∃ after, workflow.steps = earlier.map Call.step ++ call.step :: after := by
  obtain ⟨rest, hrest⟩ := h.ran.steps_prefix
  refine ⟨later.map Call.step ++ rest, ?_⟩
  rw [← hrest, hcalls]
  simp

/-- Two calls of a run whose steps have one id are one call. -/
theorem eq_of_id (h : Made executor workflow inputs calls run outputs) {a b : Call}
    (ha : a ∈ calls) (hb : b ∈ calls) (hid : a.step.id = b.step.id) : a = b := by
  obtain ⟨rest, hrest⟩ := h.ran.steps_prefix
  have hnodup := ids_nodup workflow
  rw [← hrest, List.map_append, List.map_map] at hnodup
  exact List.inj_on_of_nodup_map (List.nodup_append.mp hnodup).1 ha hb hid

end Made

/-! ## What the tools are called with -/

/-- What a tool is given for a parameter after some calls: a literal as it is, and for a
    reference the output of a call of that name, or what the caller supplied, or `None`. -/
inductive Filled (inputs : PyDict PyStr PyValue) (earlier : List Call) :
    PyStr × PyValue → PyStr × PyValue → Prop
  | literal {key : PyStr} {value : PyValue} (hvalue : referencedStep value = none) :
      Filled inputs earlier (key, value) (key, value)
  | output {key : PyStr} {value : PyValue} {call : Call} (hcall : call ∈ earlier) (hok : call.ok)
      (hvalue : referencedStep value = some call.step.id) :
      Filled inputs earlier (key, value) (key, call.result.output)
  | input {key name : PyStr} {value given : PyValue} (hvalue : referencedStep value = some name)
      (hfailed : ∀ call ∈ earlier, call.step.id = name → ¬call.ok)
      (hgiven : PyDict.get name inputs = some given) :
      Filled inputs earlier (key, value) (key, given)
  | missing {key name : PyStr} {value : PyValue} (hvalue : referencedStep value = some name)
      (hfailed : ∀ call ∈ earlier, call.step.id = name → ¬call.ok)
      (hgiven : PyDict.get name inputs = none) :
      Filled inputs earlier (key, value) (key, .none)

/-- The parameters of each call are those of its step, filled in, and its result is what the
    executor makes of them. -/
def Called (executor : Nat → TimedExecutor) (inputs : PyDict PyStr PyValue) (calls : List Call) :
    Prop :=
  ∀ earlier call later, calls = earlier ++ call :: later →
    List.Forall₂ (Filled inputs earlier) call.step.params call.params ∧
      (executor earlier.length).execute call.step.tool (some call.params) = .ok call.result

section Filled

variable {inputs outputs : PyDict PyStr PyValue} {earlier : List Call}

/-- `_resolve` fills the parameters in from what the names stand for. -/
theorem Env.filled (h : Env inputs earlier outputs) (step : WorkflowStep) :
    List.Forall₂ (Filled inputs earlier) step.params (resolve step outputs) := by
  unfold resolve
  rw [List.forall₂_map_right_iff, List.forall₂_same]
  rintro ⟨key, value⟩ -
  cases hvalue : referencedStep value with
  | none =>
    simp only [hvalue]
    exact .literal hvalue
  | some name =>
    simp only [hvalue]
    by_cases hproduced : ∃ call ∈ earlier, call.step.id = name ∧ call.ok
    · obtain ⟨call, hcall, rfl, hok⟩ := hproduced
      rw [h.produced call hcall hok]
      exact .output hcall hok hvalue
    · have hfailed : ∀ call ∈ earlier, call.step.id = name → ¬call.ok :=
        fun call hcall hid hok => hproduced ⟨call, hcall, hid, hok⟩
      rw [h.supplied name hfailed]
      cases hgiven : PyDict.get name inputs with
      | none => exact .missing hvalue hfailed hgiven
      | some given => exact .input hvalue hfailed hgiven

/-- Where the calls have names of their own, a parameter is filled in one way only. -/
theorem Filled.unique
    (hdistinct : ∀ a ∈ earlier, ∀ b ∈ earlier, a.step.id = b.step.id → a = b)
    {entry given given' : PyStr × PyValue} (h : Filled inputs earlier entry given)
    (h' : Filled inputs earlier entry given') : given = given' := by
  -- The four ways to fill a parameter exclude each other
  cases h with
  | literal hvalue =>
    cases h' with
    | literal => rfl
    | output _ _ hvalue' => simp [hvalue] at hvalue'
    | input hvalue' => simp [hvalue] at hvalue'
    | missing hvalue' => simp [hvalue] at hvalue'
  | output hcall hok hvalue =>
    cases h' with
    | literal hvalue' => simp [hvalue] at hvalue'
    | output hcall' _ hvalue' =>
      rw [hdistinct _ hcall _ hcall' (Option.some.inj (hvalue.symm.trans hvalue'))]
    | input hvalue' hfailed => exact absurd hok (hfailed _ hcall (by simpa [hvalue] using hvalue'))
    | missing hvalue' hfailed =>
      exact absurd hok (hfailed _ hcall (by simpa [hvalue] using hvalue'))
  | input hvalue hfailed hgiven =>
    cases h' with
    | literal hvalue' => simp [hvalue] at hvalue'
    | output hcall' hok' hvalue' =>
      exact absurd hok' (hfailed _ hcall' (by simpa [hvalue, eq_comm] using hvalue'))
    | input hvalue' _ hgiven' =>
      obtain rfl := Option.some.inj (hvalue.symm.trans hvalue')
      rw [Option.some.inj (hgiven.symm.trans hgiven')]
    | missing hvalue' _ hgiven' =>
      obtain rfl := Option.some.inj (hvalue.symm.trans hvalue')
      simp [hgiven] at hgiven'
  | missing hvalue hfailed hgiven =>
    cases h' with
    | literal hvalue' => simp [hvalue] at hvalue'
    | output hcall' hok' hvalue' =>
      exact absurd hok' (hfailed _ hcall' (by simpa [hvalue, eq_comm] using hvalue'))
    | input hvalue' _ hgiven' =>
      obtain rfl := Option.some.inj (hvalue.symm.trans hvalue')
      simp [hgiven] at hgiven'
    | missing => rfl

end Filled

/-- A run calls its tools with the parameters of its steps, filled in. -/
theorem Made.called {workflow : Workflow} {inputs outputs : PyDict PyStr PyValue}
    {calls : List Call} {run : WorkflowRun} (h : Made executor workflow inputs calls run outputs) :
    Called executor inputs calls := by
  intro earlier call later hcalls
  obtain ⟨hparams, hexecuted⟩ := h.ran.executed hcalls
  rw [Nat.zero_add] at hexecuted
  refine ⟨?_, hexecuted⟩
  rw [hparams]
  exact (h.env hcalls).filled call.step

/-! ## Runs that the pre-check let through -/

/-- What a parameter is bound to after some calls: a literal to itself, and a reference to the
    declared input of that name or to the output of the step of that name; or to `None`, where
    that step is optional and failed. -/
inductive Bound (workflow : Workflow) (inputs : PyDict PyStr PyValue) (earlier : List Call) :
    PyStr × PyValue → PyStr × PyValue → Prop
  | literal {key : PyStr} {value : PyValue} (hvalue : referencedStep value = none) :
      Bound workflow inputs earlier (key, value) (key, value)
  | input {key name : PyStr} {value given : PyValue} (hvalue : referencedStep value = some name)
      (hdeclared : name ∈ workflow.inputs) (hgiven : PyDict.get name inputs = some given) :
      Bound workflow inputs earlier (key, value) (key, given)
  | output {key : PyStr} {value : PyValue} {call : Call} (hcall : call ∈ earlier) (hok : call.ok)
      (hvalue : referencedStep value = some call.step.id) :
      Bound workflow inputs earlier (key, value) (key, call.result.output)
  | failed {key : PyStr} {value : PyValue} {call : Call} (hcall : call ∈ earlier)
      (hfailed : ¬call.ok) (hoptional : call.step.optional = true)
      (hvalue : referencedStep value = some call.step.id) :
      Bound workflow inputs earlier (key, value) (key, .none)

/-- What holds of a run that the pre-check let through. -/
structure Sound (executor : Nat → TimedExecutor) (workflow : Workflow)
    (inputs : PyDict PyStr PyValue) (calls : List Call) (run : WorkflowRun)
    (outputs : PyDict PyStr PyValue) : Prop where
  /-- Each tool is called with the parameters of its step, every reference bound. -/
  bound : ∀ earlier call later, calls = earlier ++ call :: later →
    List.Forall₂ (Bound workflow inputs earlier) call.step.params call.params ∧
      (executor earlier.length).execute call.step.tool (some call.params) = .ok call.result
  steps : calls.map Call.step <+: workflow.steps
  completed : run.completed = true ↔ calls.map Call.step = workflow.steps ∧
    ∀ call ∈ calls, call.step.optional = false → call.ok
  failed : run.failedStep = if run.completed then none else run.steps.getLast?.map (·.id)
  keys : ∀ key, key ∈ PyDict.keys outputs ↔
    key ∈ PyDict.keys inputs ∨ ∃ call ∈ calls, call.ok ∧ call.step.id = key

/-- The calls that are followed by another succeeded, or were of optional steps. -/
theorem Ran.ok_or_optional {n : Nat} {outputs final : PyDict PyStr PyValue}
    {steps : List WorkflowStep} {calls : List Call} {failed : Option PyStr}
    (h : Ran executor n outputs steps calls final failed)
    {earlier later : List Call} {call : Call} (hcalls : calls = earlier ++ call :: later)
    (hlater : later ≠ []) : call.ok ∨ call.step.optional = true := by
  induction h generalizing earlier with
  | done => simp at hcalls
  | succeeded _ hok _ ih =>
    cases earlier with
    | nil =>
      obtain ⟨rfl, -⟩ := List.cons.inj hcalls
      exact .inl hok
    | cons first earlier => exact ih (List.cons.inj hcalls).2
  | skipped _ _ hoptional _ ih =>
    cases earlier with
    | nil =>
      obtain ⟨rfl, -⟩ := List.cons.inj hcalls
      exact .inr hoptional
    | cons first earlier => exact ih (List.cons.inj hcalls).2
  | failed =>
    cases earlier with
    | nil => exact absurd (List.cons.inj hcalls).2.symm hlater
    | cons first earlier => simp at hcalls

/-- What a parameter of a call is filled in with it is bound to, once the pre-check found nothing
    missing. -/
theorem Made.bound {workflow : Workflow} {inputs outputs : PyDict PyStr PyValue}
    {calls : List Call} {run : WorkflowRun} (h : Made executor workflow inputs calls run outputs)
    (hdeclared : ∀ key ∈ PyDict.keys inputs, key ∈ workflow.inputs)
    (hresolved : unresolvedReferences workflow (PyDict.keys inputs) = [])
    {earlier later : List Call} {call : Call} (hcalls : calls = earlier ++ call :: later)
    {entry given : PyStr × PyValue} (hentry : entry ∈ call.step.params)
    (hfilled : Filled inputs earlier entry given) : Bound workflow inputs earlier entry given := by
  cases hfilled with
  | literal hvalue => exact .literal hvalue
  | output hcall hok hvalue => exact .output hcall hok hvalue
  | @input key name value given hvalue _ hgiven =>
    refine .input hvalue (hdeclared name ?_) hgiven
    by_contra hnone
    rw [PyDict.get_eq_none_iff.mpr hnone] at hgiven
    cases hgiven
  | @missing key name value hvalue hfailed hgiven =>
    obtain ⟨after, hsteps⟩ := h.steps_split hcalls
    have hname : name ∈ call.step.references := List.mem_filterMap.mpr ⟨_, hentry, hvalue⟩
    obtain hsupplied | ⟨step, hstep, hid⟩ :=
      (unresolvedFrom_eq_nil hresolved).2 _ call.step after hsteps name hname
    · exact absurd hsupplied (PyDict.get_eq_none_iff.mp hgiven)
    · obtain ⟨other, hother, rfl⟩ := List.mem_map.mp hstep
      have hnot : ¬other.ok := hfailed other hother hid
      obtain ⟨front, back, hsplit⟩ := List.append_of_mem hother
      have hcalls' : calls = front ++ other :: (back ++ call :: later) := by
        rw [hcalls, hsplit]
        simp
      -- A required step that fails is the last
      have hoptional := (h.ran.ok_or_optional hcalls' (by simp)).resolve_left hnot
      exact .failed hother hnot hoptional (by rw [hvalue, hid])

/-- The pre-check is sound: of a run with declared inputs in which it found nothing missing,
    every reference is bound. -/
theorem run_sound (executor : Nat → TimedExecutor) (workflow : Workflow)
    (inputs : Option (PyDict PyStr PyValue)) (run : WorkflowRun) (outputs : PyDict PyStr PyValue)
    (hdeclared : ∀ key ∈ PyDict.keys (inputs.getD []), key ∈ workflow.inputs)
    (hresolved : unresolvedReferences workflow (PyDict.keys (inputs.getD [])) = [])
    (hrun : WorkflowRunner.run executor workflow inputs = .ok (run, outputs)) :
    ∃ calls, Made executor workflow (inputs.getD []) calls run outputs ∧
      Sound executor workflow (inputs.getD []) calls run outputs := by
  obtain ⟨calls, hmade⟩ := made_of_run hrun
  refine ⟨calls, hmade, ?_⟩
  constructor
  case bound =>
    intro earlier call later hcalls
    obtain ⟨hparams, hexecuted⟩ := hmade.called earlier call later hcalls
    refine ⟨?_, hexecuted⟩
    rw [List.forall₂_iff_zip] at hparams ⊢
    refine ⟨hparams.1, fun {entry given} hzip => ?_⟩
    exact hmade.bound hdeclared hresolved hcalls (List.of_mem_zip hzip).1 (hparams.2 hzip)
  case steps => exact hmade.ran.steps_prefix
  case completed => rw [hmade.completed, Option.isNone_iff_eq_none, hmade.ran.failed_eq_none_iff]
  case failed =>
    rw [hmade.completed]
    cases hfailed : run.failedStep with
    | none => rfl
    | some id =>
      obtain ⟨call, hcall, hid, -⟩ := hmade.ran.failed_eq_some hfailed
      rw [hmade.records, List.getLast?_map, Option.mem_def.mp hcall, ← hid]
      rfl
  case keys => exact hmade.ran.mem_keys

/-- `TICKET_CONTEXT`. -/
def ticketContext : Workflow where
  name := lit "ticket_context"
  description := lit "Gather everything known about one ticket: the ticket itself, plus documentation relevant to what the customer wrote."
  inputs := [lit "ticket_id"]
  steps := [
    { id := lit "ticket", tool := lit "lookup_ticket", optional := false
      params := [(lit "ticket_id", .str (referenceTo (lit "ticket_id")))] },
    { id := lit "recent", tool := lit "list_tickets", optional := true
      params := [(lit "limit", .int 5)] }]
  described := by decide +kernel
  counted := by decide
  valid := by rfl

/-- A registry in which a ticket is looked up, or not, and tickets are listed of any status
    or of none. -/
def tools (found : Bool) : TimedExecutor where
  registry name :=
    if name = lit "lookup_ticket" then some {
      name := name
      call := fun _ => .accepted
        (if found then .returned (.dict []) else .raised (.declared (lit "No ticket.") false) false) }
    else if name = lit "list_tickets" then some {
      name := name
      call := fun params =>
        match PyDict.get (lit "status") params with
        | none | some .none => .accepted (.returned (.list []))
        | some (.str status) => .accepted (.raised (.declared status false) false)
        | some _ => .invalid [] }
    else none
  timeout := lit "15"
  printable _ := true

/-- A run of `ticketContext`, whose second step refers to the first, is sound. -/
theorem run_sound_ticketContext : ∃ run outputs calls,
    Made (fun _ => tools true) ticketContext [(lit "ticket_id", .str (lit "7"))] calls run outputs ∧
      Sound (fun _ => tools true) ticketContext [(lit "ticket_id", .str (lit "7"))] calls run
        outputs := by
  obtain ⟨⟨run, outputs⟩, hrun⟩ : ∃ result, WorkflowRunner.run (fun _ => tools true) ticketContext
      (some [(lit "ticket_id", .str (lit "7"))]) = .ok result := ⟨_, rfl⟩
  exact ⟨run, outputs, run_sound _ _ _ _ _ (by decide) (by decide) hrun⟩

/-! ## References to steps that did not succeed -/

/-- An earlier step of that name did not succeed. -/
def Missing (earlier : List Call) (name : PyStr) : Prop :=
  ∃ call ∈ earlier, call.step.id = name ∧ ¬ call.ok

/-- A tool was not run. -/
def Refused (result : ToolResult) : Prop :=
  result.outcome = .invalidParams ∨ result.outcome = .notFound

/-- No step is run on a missing dependency: it is refused, nothing stands for what it refers to,
    and its tool was to be called with `None` in its place. -/
def Respected (calls : List Call) : Prop :=
  ∀ earlier call later, calls = earlier ++ call :: later → ∀ name ∈ call.step.references,
    Missing earlier name → Refused call.result ∧ PyDict.get name call.outputs = none ∧
      List.Forall₂ (fun entry given => referencedStep entry.2 = some name → given = (entry.1, .none))
        call.step.params call.params

/-- There is no such tool, or its parameters refuse what they are given. -/
def rejects (executor : TimedExecutor) (tool : PyStr) (params : PyDict PyStr PyValue) : Bool :=
  match executor.registry tool with
  | none => true
  | some tool =>
    match tool.call params with
    | .invalid _ => true
    | _ => false

/-- Where a step refers to one that did not succeed, the caller supplied nothing of that name,
    and the tool's parameters refuse what the step's come to: its literals, the outputs of the
    steps that succeeded, what the caller supplied, and `None` for the rest. -/
def Guarded (executor : Nat → TimedExecutor) (inputs : PyDict PyStr PyValue) (calls : List Call) :
    Prop :=
  ∀ earlier call later, calls = earlier ++ call :: later → ∀ name ∈ call.step.references,
    Missing earlier name → name ∉ PyDict.keys inputs ∧
      ∀ params, List.Forall₂ (Filled inputs earlier) call.step.params params →
        rejects (executor earlier.length) call.step.tool params = true

/-- A tool is not run exactly when its parameters are rejected. -/
theorem refused_iff {executor : TimedExecutor} {tool : PyStr} {params : PyDict PyStr PyValue}
    {result : ToolResult} (h : executor.execute tool (some params) = .ok result) :
    Refused result ↔ rejects executor tool params = true := by
  unfold TimedExecutor.execute at h
  unfold rejects
  cases hget : executor.registry tool with
  | none =>
    simp only [hget, Except.ok.injEq] at h
    exact iff_of_true (.inr (by rw [← h]; rfl)) rfl
  | some tool =>
    simp only [hget, Option.getD_some] at h ⊢
    cases hcall : tool.call params with
    | invalid issues =>
      simp only [hcall, Except.ok.injEq] at h
      exact iff_of_true (.inl (by rw [← h]; rfl)) rfl
    | raised exception =>
      rw [hcall] at h
      exact nomatch h
    | accepted call =>
      simp only [hcall, Except.ok.injEq] at h
      refine iff_of_false ?_ nofun
      rw [← h]
      unfold TimedExecutor.run Refused
      split <;> simp [ToolResult.success, ToolResult.failure]

section Missing

variable {workflow : Workflow} {inputs outputs : PyDict PyStr PyValue} {calls : List Call}
  {run : WorkflowRun} {earlier later : List Call} {call : Call} {name : PyStr}

/-- No two calls before a call are of one id. -/
theorem Made.distinct (h : Made executor workflow inputs calls run outputs)
    (hcalls : calls = earlier ++ call :: later) :
    ∀ a ∈ earlier, ∀ b ∈ earlier, a.step.id = b.step.id → a = b := by
  intro a ha b hb
  apply h.eq_of_id <;> (rw [hcalls]; exact List.mem_append_left _ ‹_›)

/-- No call under a `Missing` name was `ok`. -/
theorem Missing.not_ok (h : Missing earlier name)
    (hdistinct : ∀ a ∈ earlier, ∀ b ∈ earlier, a.step.id = b.step.id → a = b) :
    ∀ other ∈ earlier, other.step.id = name → ¬other.ok := by
  obtain ⟨failed, hfailed, hid, hnot⟩ := h
  intro other hother hother_id
  rwa [hdistinct other hother failed hfailed (hother_id.trans hid.symm)]

/-- A `Missing` name has the value that the caller supplied under it, or none. -/
theorem Made.get_missing (h : Made executor workflow inputs calls run outputs)
    (hcalls : calls = earlier ++ call :: later) (hmissing : Missing earlier name) :
    PyDict.get name call.outputs = PyDict.get name inputs :=
  (h.env hcalls).supplied name (hmissing.not_ok (h.distinct hcalls))

/-- Where the caller supplied nothing, a reference to it is filled in with `None`. -/
theorem Filled.eq_none {entry given : PyStr × PyValue} (h : Filled inputs earlier entry given)
    (hnot : ∀ other ∈ earlier, other.step.id = name → ¬other.ok)
    (hinputs : PyDict.get name inputs = none) (hname : referencedStep entry.2 = some name) :
    given = (entry.1, .none) := by
  cases h with
  | literal hvalue => simp [hvalue] at hname
  | output hcall hok hvalue => exact absurd hok (hnot _ hcall (by simpa [hvalue] using hname))
  | input hvalue _ hgiven =>
    obtain rfl := Option.some.inj (hvalue.symm.trans hname)
    simp [hgiven] at hinputs
  | missing => rfl

end Missing

/-- No step of a run is run on a missing dependency exactly when every reference to a step that
    did not succeed meets the condition. -/
theorem never_on_missing_iff (executor : Nat → TimedExecutor) (workflow : Workflow)
    (inputs : Option (PyDict PyStr PyValue)) (run : WorkflowRun) (outputs : PyDict PyStr PyValue)
    (hrun : WorkflowRunner.run executor workflow inputs = .ok (run, outputs)) :
    ∃ calls, Made executor workflow (inputs.getD []) calls run outputs ∧
      Called executor (inputs.getD []) calls ∧
      (Respected calls ↔ Guarded executor (inputs.getD []) calls) := by
  obtain ⟨calls, hmade⟩ := made_of_run hrun
  refine ⟨calls, hmade, hmade.called, ?_⟩
  unfold Respected Guarded
  refine forall_congr' fun earlier => forall_congr' fun call => forall_congr' fun later =>
    forall_congr' fun hcalls => forall_congr' fun name => forall_congr' fun _ =>
    forall_congr' fun hmissing => ?_
  obtain ⟨hfilled, hexecuted⟩ := hmade.called earlier call later hcalls
  have hdistinct := hmade.distinct hcalls
  -- The step's parameters come to one thing only, which is what its tool is called with
  have hunique : ∀ params, List.Forall₂ (Filled (inputs.getD []) earlier) call.step.params params →
      params = call.params := fun params hparams =>
    List.right_unique_forall₂' (fun _ _ _ h h' => h.unique hdistinct h') hparams hfilled
  have hgiven : (∀ params, List.Forall₂ (Filled (inputs.getD []) earlier) call.step.params params →
      rejects (executor earlier.length) call.step.tool params = true) ↔
        rejects (executor earlier.length) call.step.tool call.params = true :=
    ⟨fun hall => hall _ hfilled, fun hrejects params hparams => hunique params hparams ▸ hrejects⟩
  rw [hgiven, refused_iff hexecuted, hmade.get_missing hcalls hmissing, ← PyDict.get_eq_none_iff]
  constructor
  · rintro ⟨hrejects, hinputs, -⟩
    exact ⟨hinputs, hrejects⟩
  · rintro ⟨hinputs, hrejects⟩
    refine ⟨hrejects, hinputs, hfilled.imp ?_⟩
    exact fun entry given hentry => hentry.eq_none (hmissing.not_ok hdistinct) hinputs

/-- A workflow whose second step refers to an optional one. -/
def ticketsLikeOne : Workflow where
  name := lit "tickets_like_one"
  description := lit "List tickets of the status of one."
  inputs := []
  steps := [
    { id := lit "ticket", tool := lit "lookup_ticket", optional := true
      params := [(lit "ticket_id", .str (lit "7"))] },
    { id := lit "alike", tool := lit "list_tickets", optional := false
      params := [(lit "status", .str (referenceTo (lit "ticket")))] }]
  described := by decide
  counted := by decide
  valid := by rfl

/-- The ticket is not there. Tickets of any status are listed. -/
def anyTickets : List Call := [
  { step :=
      { id := lit "ticket", tool := lit "lookup_ticket", optional := true
        params := [(lit "ticket_id", .str (lit "7"))] }
    outputs := []
    params := [(lit "ticket_id", .str (lit "7"))]
    result := .failure (lit "lookup_ticket") .failed (lit "No ticket.") false },
  { step :=
      { id := lit "alike", tool := lit "list_tickets", optional := false
        params := [(lit "status", .str (referenceTo (lit "ticket")))] }
    outputs := []
    params := [(lit "status", .none)]
    result := .success (lit "list_tickets") (.list []) }]

/-- A parameter that may be missing takes the `None` of the reference, and its step is run. -/
theorem missing_reaches_tool : ∃ run outputs,
    WorkflowRunner.run (fun _ => tools false) ticketsLikeOne none = .ok (run, outputs) ∧
    Made (fun _ => tools false) ticketsLikeOne [] anyTickets run outputs ∧
    ¬ Respected anyTickets := by
  refine ⟨{ workflow := lit "tickets_like_one", completed := true
            steps := anyTickets.map Call.record, failedStep := none },
    [(lit "alike", .list [])], rfl, ⟨?_, rfl, rfl⟩, ?_⟩
  · exact .skipped rfl (by decide) rfl (.succeeded rfl rfl (.done _ _))
  · intro hrespected
    obtain ⟨hrefused, -⟩ := hrespected (anyTickets.take 1) _ [] rfl (lit "ticket") (by decide)
      ⟨_, List.mem_cons_self, rfl, by decide⟩
    exact hrefused.elim nofun nofun

/-- A run of `ticketsLikeOne`, whose optional first step fails, and what the steps behind it got. -/
theorem never_on_missing_iff_ticketsLikeOne : ∃ run outputs calls,
    Made (fun _ => tools false) ticketsLikeOne [] calls run outputs ∧
      Called (fun _ => tools false) [] calls ∧
      (Respected calls ↔ Guarded (fun _ => tools false) [] calls) := by
  obtain ⟨⟨run, outputs⟩, hrun⟩ : ∃ result, WorkflowRunner.run (fun _ => tools false)
      ticketsLikeOne none = .ok result := ⟨_, rfl⟩
  exact ⟨run, outputs, never_on_missing_iff _ _ _ _ _ hrun⟩

end NexaAssist.Spec.WorkflowRuns
