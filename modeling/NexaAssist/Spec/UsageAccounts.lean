import NexaAssist.ForStd.Counting
import NexaAssist.Observability.TracedProvider
import NexaAssist.Spec.BoundedMetrics
import NexaAssist.Spec.CostTotals

/-!
# The books of a provider

What calls of the model leave behind in three places. The spans, the ledger and the counts tell
of the same calls, and of the same tokens.
-/

namespace NexaAssist.Spec.UsageAccounts

open PyJson TracedLLMProvider CostTotals
open BoundedMetrics (noFloats)

/-! ## Metrics that refuse nothing -/

section Metrics

variable {floats : FloatText} {cap : Nat} {calls : List MetricsCall} {metric : PyStr}

/-- What some calls count for a metric, by series. -/
def countedFor (floats : FloatText) (metric : PyStr) (calls : List MetricsCall) :
    List (Series × Int) :=
  (calls.filterMap (MetricsCall.counted floats)).filter fun entry => entry.1.1 = metric

/-- The series a metric is wanted for are the labels it is counted under. -/
theorem wanted_eq : CappedStore.wanted Prod.fst metric (calls.filterMap (MetricsCall.counted floats)) =
    ((countedFor floats metric calls).map Prod.fst).dedup := by
  rw [CappedStore.wanted, countedFor, List.filter_map]
  rfl

/-- A counter is the sum of all that was counted for it, while its metric has no more series than
    the cap. -/
theorem counter_of_few (hfew : ((countedFor floats metric calls).map Prod.fst).dedup.length ≤ cap)
    (labels : Option Labels) : (BoundedMetrics.run floats cap calls).counter floats metric labels =
      (((countedFor floats metric calls).filter fun entry =>
        entry.1 = (metric, Metrics.labels floats labels)).map Prod.snd).sum := by
  rw [InMemoryMetrics.counter, BoundedMetrics.counters_run,
    CappedStore.get_run_of_few (by rwa [wanted_eq]), InMemoryMetrics.accumulate_addCount,
    Option.getD_none, Int.zero_add, CappedStore.entriesOf, countedFor, List.filter_filter]
  congr 2
  apply List.filter_congr
  intro entry _
  by_cases hseries : entry.1 = (metric, Metrics.labels floats labels) <;> simp [hseries]

/-- A total is the sum of all that was counted for its metric, while that has no more series than
    the cap. -/
theorem total_of_few (hfew : ((countedFor floats metric calls).map Prod.fst).dedup.length ≤ cap) :
    (BoundedMetrics.run floats cap calls).total metric =
      ((countedFor floats metric calls).map Prod.snd).sum := by
  have hdistinct := (BoundedMetrics.nodup_keys_run floats cap calls).1
  have hvalues := PyDict.map_snd_filter hdistinct (fun series => series.1 = metric) 0
  have heach : ∀ series ∈ (PyDict.keys (BoundedMetrics.run floats cap calls).counters).filter
      (fun series => series.1 = metric),
      (PyDict.get series (BoundedMetrics.run floats cap calls).counters).getD 0 =
        (((countedFor floats metric calls).filter fun entry => entry.1 = series).map Prod.snd).sum := by
    intro series hseries
    obtain ⟨hmem, hmetric⟩ := List.mem_filter.mp hseries
    obtain ⟨labels, hlabels⟩ := BoundedMetrics.exists_labels hmem
    rw [of_decide_eq_true hmetric] at hlabels
    rw [← hlabels]
    exact counter_of_few hfew labels
  rw [InMemoryMetrics.total, hvalues, List.map_congr_left heach]
  apply List.sum_map_sum_filter Prod.fst Prod.snd (hdistinct.filter _)
  intro entry hentry
  obtain ⟨hmem, hmetric⟩ := List.mem_filter.mp hentry
  have hfew' : (CappedStore.wanted Prod.fst entry.1.1
      (calls.filterMap (MetricsCall.counted floats))).length ≤ cap := by
    rw [of_decide_eq_true hmetric, wanted_eq]
    exact hfew
  rw [List.mem_filter, BoundedMetrics.counters_run]
  exact ⟨CappedStore.mem_run_of_few hfew' (List.mem_map_of_mem hmem), hmetric⟩

end Metrics

/-! ## The books -/

variable {T : Type} (p : TracedLLMProvider)

/-- What calls leave, one after another, of books that are new. -/
def books (calls : List (ModelCall T)) : Accounts :=
  calls.foldl (fun s c => (p.completeStructured c s).2) .empty

/-- What a call comes to. -/
def given (c : ModelCall T) : CompletionOutcome T := (p.completeStructured c .empty).1

/-- What a call is accounted as, if it is. -/
def accounted (c : ModelCall T) : Option CostEstimate :=
  match c.outcome with
  | .returned completion => (p.account completion).toOption
  | .raised .. => none

/-- The usage of a completion can be priced, or is not. -/
structure Billable (completion : StructuredCompletion T) : Prop where
  input_nonneg : 0 ≤ completion.usage.inputTokens
  output_nonneg : 0 ≤ completion.usage.outputTokens
  payable : ∀ price, p.pricing.get completion.model = some price →
    Payable completion.usage.inputTokens price.inputPerMillion ∧
      Payable completion.usage.outputTokens price.outputPerMillion

/-- The counts, and what an accounted call adds to each. -/
def counts : List (PyStr × (CostEstimate → Int)) :=
  [(CALLS_TOTAL, fun _ => 1), (INPUT_TOKENS_TOTAL, (·.inputTokens)),
    (OUTPUT_TOKENS_TOTAL, (·.outputTokens))]

def metricOf : MetricsCall → PyStr
  | .increment metric .. => metric
  | .observe metric .. => metric

/-- What others record during a call has other names. -/
structure Quiet (c : ModelCall T) : Prop where
  spans : ∀ span ∈ c.spans, span.name ≠ SPAN_NAME
  calls : ∀ call ∈ c.calls, metricOf call ∉ counts.map Prod.fst

/-- The labels that the metrics count a call under. -/
def countedUnder (floats : FloatText) (estimate : CostEstimate) : List (PyStr × PyStr) :=
  Metrics.labels floats (some (labels estimate.provider estimate.model))

/-- What the span of a call tells. -/
structure Tells (c : ModelCall T) (span : Span) : Prop where
  status : span.status = .error ↔ (given p c).body.isException = true
  told : ∀ e, accounted p c = some e →
    PyDict.get (lit "input_tokens") span.attributes = some (.int e.inputTokens) ∧
      PyDict.get (lit "output_tokens") span.attributes = some (.int e.outputTokens) ∧
      PyDict.get (lit "priced") span.attributes = some (.bool e.priced) ∧
      PyDict.get (lit "cost") span.attributes = some (safeValue (.str e.totalCost.text))
  untold : accounted p c = none → PyDict.get (lit "cost") span.attributes = none

/-- The books of calls tell of the same. -/
structure Agree (floats : FloatText) (cap : Nat) (calls : List (ModelCall T)) : Prop where
  /-- The failure of a call is passed on, and not accounted. -/
  failed : ∀ c ∈ calls, ∀ name isException, c.outcome = .raised name isException →
    given p c = c.outcome ∧ accounted p c = none
  /-- And so is an answer that can be billed, which is. -/
  billed : ∀ c ∈ calls, ∀ completion, c.outcome = .returned completion → Billable p completion →
    given p c = c.outcome ∧ ∃ e, accounted p c = some e ∧
      Estimated completion.provider completion.model completion.usage e
  /-- But an answer with a negative count is lost. -/
  lost : ∀ c ∈ calls, ∀ completion, c.outcome = .returned completion →
    completion.usage.inputTokens < 0 ∨ completion.usage.outputTokens < 0 →
    accounted p c = none ∧ ∃ name, given p c = .raised name true
  ledger : (books p calls).ledger.entries = calls.filterMap (accounted p)
  spans : List.Forall₂ (Tells p) calls
    ((books p calls).observations.tracer.recorded.filter fun span => span.name = SPAN_NAME)
  totals : ∀ n ∈ counts,
    (BoundedMetrics.run floats cap (books p calls).observations.metrics).total n.1 =
      ((books p calls).ledger.entries.map n.2).sum
  counters : ∀ n ∈ counts, ∀ provider model,
    (BoundedMetrics.run floats cap (books p calls).observations.metrics).counter floats n.1
        (some (labels provider model)) =
      (((books p calls).ledger.entries.filter fun e =>
        countedUnder floats e = Metrics.labels floats (some (labels provider model))).map n.2).sum

/-! ### One call -/

section Call

variable {p} {c : ModelCall T} {s : Accounts}

/-- `settle` ends in one of three ways: the model raised, the cost could not be estimated, or the
    call is accounted. -/
theorem settle_cases (p : TracedLLMProvider) (c : ModelCall T) (frame : Frame) :
    (∃ name isException, c.outcome = .raised name isException ∧
      p.settle c frame = (.raised name isException, frame, none)) ∨
    (∃ completion failure, c.outcome = .returned completion ∧
      p.account completion = .error failure ∧
      p.settle c frame = (.raised failure.className true, frame, none)) ∨
    ∃ completion estimate, c.outcome = .returned completion ∧
      p.account completion = .ok estimate ∧
      p.settle c frame = (.returned completion,
        { frame with
          handle := frame.handle.setAttributes (attributes completion.stopReason estimate) },
        some estimate) := by
  cases houtcome : c.outcome with
  | raised name isException =>
    refine .inl ⟨name, isException, rfl, ?_⟩
    rw [settle, houtcome]
  | returned completion =>
    cases haccount : p.account completion with
    | error failure =>
      refine .inr (.inl ⟨completion, failure, rfl, haccount, ?_⟩)
      rw [settle, houtcome]
      simp only [haccount]
    | ok estimate =>
      refine .inr (.inr ⟨completion, estimate, rfl, haccount, ?_⟩)
      rw [settle, houtcome]
      simp only [haccount]

/-- `settle` leaves the name and the status of its span. -/
theorem settle_handle (p : TracedLLMProvider) (c : ModelCall T) (frame : Frame) :
    (p.settle c frame).2.1.handle.name = frame.handle.name ∧
      (p.settle c frame).2.1.handle.status = frame.handle.status := by
  obtain ⟨_, _, _, hsettle⟩ | ⟨_, _, _, _, hsettle⟩ | ⟨_, _, _, _, hsettle⟩ := settle_cases p c frame
  · rw [hsettle]
    exact ⟨rfl, rfl⟩
  · rw [hsettle]
    exact ⟨rfl, rfl⟩
  · rw [hsettle]
    exact ⟨rfl, rfl⟩

/-- `settle` accounts for a call as `accounted` says. -/
theorem settle_snd (p : TracedLLMProvider) (c : ModelCall T) (frame : Frame) :
    (p.settle c frame).2.2 = accounted p c := by
  obtain ⟨name, isException, houtcome, hsettle⟩ | ⟨completion, failure, houtcome, haccount, hsettle⟩ |
    ⟨completion, estimate, houtcome, haccount, hsettle⟩ := settle_cases p c frame
  · rw [hsettle, accounted, houtcome]
  · rw [hsettle, accounted, houtcome]
    simp only [haccount]
    rfl
  · rw [hsettle, accounted, houtcome]
    simp only [haccount]
    rfl

/-- `completeStructured` adds what is accounted to the ledger. -/
theorem completeStructured_ledger (p : TracedLLMProvider) (c : ModelCall T) (s : Accounts) :
    (p.completeStructured c s).2.ledger = (accounted p c).elim s.ledger s.ledger.add := by
  rw [← settle_snd p c (s.observations.tracer.enter s.observations.current SPAN_NAME .llm
    [(lit "provider", .str p.name), (lit "schema", .str c.schema)] c.entered).1]
  rfl

/-- `completeStructured` counts the call, and the tokens and the cost of what is accounted. -/
theorem completeStructured_metrics (p : TracedLLMProvider) (c : ModelCall T) (s : Accounts) :
    (p.completeStructured c s).2.observations.metrics =
      s.observations.metrics ++ (c.calls ++ (accounted p c).elim [] count) := by
  rw [← List.append_assoc, ← settle_snd p c (s.observations.tracer.enter s.observations.current
    SPAN_NAME .llm [(lit "provider", .str p.name), (lit "schema", .str c.schema)] c.entered).1]
  rfl

/-- `completeStructured` gives the caller what `given` says. -/
theorem completeStructured_fst (p : TracedLLMProvider) (c : ModelCall T) (s : Accounts) :
    (p.completeStructured c s).1 = given p c := by
  have hsettle (frame frame' : Frame) : (p.settle c frame).1 = (p.settle c frame').1 := by
    unfold settle
    split
    · rfl
    · split <;> rfl
  exact hsettle _ _

/-- A call that raises is not accounted for. -/
theorem given_of_raised {name : PyStr} {isException : Bool}
    (h : c.outcome = .raised name isException) : given p c = c.outcome ∧ accounted p c = none := by
  simp [given, completeStructured, accounted, settle, h]

/-- A completion that can be accounted for is given as it is. -/
theorem given_of_ok {completion : StructuredCompletion T} {e : CostEstimate}
    (h : c.outcome = .returned completion) (haccount : p.account completion = .ok e) :
    given p c = c.outcome ∧ accounted p c = some e := by
  simp [given, completeStructured, accounted, settle, h, haccount, Except.toOption]

/-- A completion whose cost cannot be estimated is an error to the caller, and nothing is
    accounted. -/
theorem given_of_error {completion : StructuredCompletion T} {failure : CostFailure}
    (h : c.outcome = .returned completion) (haccount : p.account completion = .error failure) :
    given p c = .raised failure.className true ∧ accounted p c = none := by
  simp [given, completeStructured, accounted, settle, h, haccount, Except.toOption]

/-- A call's span begins with the provider and the schema for attributes. -/
theorem attributes_begun (provider schema : PyStr) :
    sanitiseAttributes [(lit "provider", .str provider), (lit "schema", .str schema)] =
      [(lit "provider", safeValue (.str provider)), (lit "schema", safeValue (.str schema))] := by
  apply sanitiseAttributes_eq
  show [lit "provider", lit "schema"].Nodup
  decide

/-- An accounted call's span has the provider, the schema, the tokens and the cost for
    attributes. -/
theorem attributes_setAttributes {handle : SpanHandle} {provider schema : PyStr}
    (hbefore : handle.attributes =
      sanitiseAttributes [(lit "provider", .str provider), (lit "schema", .str schema)])
    (stopReason : Option PyStr) (e : CostEstimate) :
    (handle.setAttributes (attributes stopReason e)).attributes =
      [(lit "provider", safeValue (.str provider)), (lit "schema", safeValue (.str schema))] ++
        (attributes stopReason e).map fun entry => (entry.1, safeValue entry.2) := by
  have hkeys : (PyDict.keys (attributes stopReason e)).Nodup := by
    show [lit "model", lit "input_tokens", lit "output_tokens", lit "usage_reported",
      lit "priced", lit "cost", lit "stop_reason"].Nodup
    decide
  rw [SpanHandle.setAttributes, hbefore, attributes_begun, sanitiseAttributes_eq hkeys]
  refine PyDict.update_of_new (show (PyDict.keys (attributes stopReason e)).Nodup from hkeys) ?_
  show ∀ key ∈ [lit "model", lit "input_tokens", lit "output_tokens", lit "usage_reported",
    lit "priced", lit "cost", lit "stop_reason"], key ∉ [lit "provider", lit "schema"]
  decide

/-- The end of a span leaves its attributes. -/
theorem ended_attributes (handle : SpanHandle) (body : Ending) :
    (handle.ended body).attributes = handle.attributes := by
  unfold SpanHandle.ended
  split <;> rfl

/-- A span begins with the attributes it is given, as `sanitiseAttributes` leaves them. -/
theorem enter_attributes (tracer : Tracer) (current : Option SpanRef) (name : PyStr)
    (kind : SpanKind) (values : Attributes) (now : Rat) :
    (tracer.enter current name kind values now).1.handle.attributes = sanitiseAttributes values := by
  cases current <;> rfl

/-- The span of a call tells, once `settle` has ended, what `Tells` says. -/
theorem settle_tells {frame : Frame} (hstatus : frame.handle.status = .ok)
    (hbefore : frame.handle.attributes =
      sanitiseAttributes [(lit "provider", .str p.name), (lit "schema", .str c.schema)])
    (hgiven : (p.settle c frame).1 = given p c) (durationMs : Rat) :
    Tells p c (((p.settle c frame).2.1.handle.ended (p.settle c frame).1.body).toSpan durationMs) := by
  -- The span says nothing of a cost before the call is priced
  have hcost : PyDict.get (lit "cost") frame.handle.attributes = none := by
    rw [hbefore, attributes_begun, PyDict.get_eq_none_iff]
    show lit "cost" ∉ [lit "provider", lit "schema"]
    decide
  have hsnd := settle_snd p c frame
  have hspan : (((p.settle c frame).2.1.handle.ended (p.settle c frame).1.body).toSpan
      durationMs).attributes = (p.settle c frame).2.1.handle.attributes := ended_attributes _ _
  constructor
  case status =>
    show ((p.settle c frame).2.1.handle.ended (p.settle c frame).1.body).status = .error ↔ _
    rw [SpanHandle.ended_status, (settle_handle p c frame).2, hstatus, hgiven]
    cases (given p c).body.isException <;> simp
  -- Only a call that was priced writes the four amounts
  case told =>
    intro e he
    rw [hspan]
    obtain ⟨_, _, _, hsettle⟩ | ⟨_, _, _, _, hsettle⟩ | ⟨completion, estimate, _, _, hsettle⟩ :=
      settle_cases p c frame
    · rw [hsettle, he] at hsnd
      cases hsnd
    · rw [hsettle, he] at hsnd
      cases hsnd
    · rw [hsettle, he] at hsnd
      obtain rfl := Option.some.inj hsnd
      rw [hsettle]
      simp only
      rw [attributes_setAttributes hbefore]
      exact ⟨rfl, rfl, rfl, rfl⟩
  case untold =>
    intro hnone
    rw [hspan]
    obtain ⟨_, _, _, hsettle⟩ | ⟨_, _, _, _, hsettle⟩ | ⟨completion, estimate, _, _, hsettle⟩ :=
      settle_cases p c frame
    · rw [hsettle]
      exact hcost
    · rw [hsettle]
      exact hcost
    · rw [hsettle, hnone] at hsnd
      cases hsnd

/-- `completeStructured` records one span, which `Tells` of the call, behind those recorded
    meanwhile. -/
theorem completeStructured_recorded (p : TracedLLMProvider) (c : ModelCall T) (s : Accounts) :
    ∃ span, (p.completeStructured c s).2.observations.tracer.recorded =
        s.observations.tracer.recorded ++ (c.spans ++ [span]) ∧
      span.name = SPAN_NAME ∧ Tells p c span := by
  generalize henter : s.observations.tracer.enter s.observations.current SPAN_NAME .llm
    [(lit "provider", .str p.name), (lit "schema", .str c.schema)] c.entered = entered
  obtain ⟨frame, tracer⟩ := entered
  have hspec := Tracer.entered_of_eq henter
  have hbefore := enter_attributes s.observations.tracer s.observations.current SPAN_NAME .llm
    [(lit "provider", .str p.name), (lit "schema", .str c.schema)] c.entered
  rw [henter] at hbefore
  have hgiven : (p.settle c frame).1 = given p c := by
    rw [← completeStructured_fst p c s, completeStructured, henter]
  have htracer : (p.completeStructured c s).2.observations.tracer =
      (Tracer.exit { tracer with
        nextId := tracer.nextId + c.drawn
        recorded := tracer.recorded ++ c.spans } (p.settle c frame).2.1 (p.settle c frame).1.body
        (.ofRecorder c.recorder) c.left).2 := by
    rw [completeStructured, henter]
  refine ⟨_, ?_, ?_, settle_tells hspec.status hbefore hgiven
    (Tracer.durationMs (p.settle c frame).2.1.started c.left)⟩
  · rw [htracer, Tracer.exit_recorded, hspec.recorded, List.append_assoc]
  · show ((p.settle c frame).2.1.handle.ended (p.settle c frame).1.body).name = SPAN_NAME
    rw [SpanHandle.ended_name, (settle_handle p c frame).1, hspec.name]

/-- `validateEstimate` lets counts and costs through that are not below zero. -/
theorem validateEstimate_ok {provider model : PyStr} {usage : LLMUsage}
    {inputCost outputCost : PyDecimal} {reported priced : Bool}
    (htokens : 0 ≤ usage.inputTokens ∧ 0 ≤ usage.outputTokens)
    (hcosts : 0 ≤ inputCost.coefficient ∧ 0 ≤ outputCost.coefficient) :
    ∃ e, validateEstimate provider model usage inputCost outputCost reported priced = .ok e :=
  ⟨_, dif_pos ⟨htokens, hcosts⟩⟩

/-- `account` estimates the cost of a completion that is `Billable`. -/
theorem account_of_billable {completion : StructuredCompletion T} (h : Billable p completion) :
    ∃ e, p.account completion = .ok e ∧
      Estimated completion.provider completion.model completion.usage e := by
  have htokens := And.intro h.input_nonneg h.output_nonneg
  have hok : ∃ e, p.account completion = .ok e := by
    simp only [TracedLLMProvider.account, estimateCost]
    cases hprice : p.pricing.get completion.model with
    | none => exact validateEstimate_ok htokens ⟨le_rfl, le_rfl⟩
    | some price =>
      obtain ⟨hinput, houtput⟩ := h.payable price hprice
      obtain ⟨inputCost, hin, hin_nonneg⟩ := hinput.cost_ok
      obtain ⟨outputCost, hout, hout_nonneg⟩ := houtput.cost_ok
      simp only [hin, hout]
      exact validateEstimate_ok htokens ⟨hin_nonneg, hout_nonneg⟩
  obtain ⟨e, he⟩ := hok
  exact ⟨e, he, estimated he⟩

/-- A count below zero cannot be accounted for. -/
theorem account_of_negative {completion : StructuredCompletion T}
    (h : completion.usage.inputTokens < 0 ∨ completion.usage.outputTokens < 0) :
    ∃ failure, p.account completion = .error failure := by
  cases haccount : p.account completion with
  | error failure => exact ⟨failure, rfl⟩
  | ok e =>
    have hest := estimated haccount
    have hnonneg := e.tokens_nonneg
    rw [hest.input_eq, hest.output_eq] at hnonneg
    omega

end Call

/-! ### Any calls -/

section Calls

variable {p} {calls : List (ModelCall T)} {c : ModelCall T} {floats : FloatText} {cap : Nat}
  {n : PyStr × (CostEstimate → Int)}

/-- One more call is one more entry in the books. -/
theorem books_concat (p : TracedLLMProvider) (calls : List (ModelCall T)) (c : ModelCall T) :
    books p (calls ++ [c]) = (p.completeStructured c (books p calls)).2 := by
  rw [books, List.foldl_append]
  rfl

/-- The ledger of `books` has the calls that are accounted, in order. -/
theorem books_ledger (p : TracedLLMProvider) (calls : List (ModelCall T)) :
    (books p calls).ledger.entries = calls.filterMap (accounted p) := by
  induction calls using List.reverseRecOn with
  | nil => rfl
  | append_singleton calls c ih =>
    rw [books_concat, completeStructured_ledger, List.filterMap_append, ← ih]
    cases h : accounted p c with
    | none => simp [h]
    | some e => simp [h, UsageLedger.add]

/-- The metrics are those of the calls, in order. -/
theorem books_metrics (p : TracedLLMProvider) (calls : List (ModelCall T)) :
    (books p calls).observations.metrics =
      calls.flatMap fun c => c.calls ++ (accounted p c).elim [] count := by
  induction calls using List.reverseRecOn with
  | nil => rfl
  | append_singleton calls c ih =>
    rw [books_concat, completeStructured_metrics, ih, List.flatMap_append, List.flatMap_singleton]

/-- `books` has a span that `Tells` of each call, in order, where every call is `Quiet`. -/
theorem books_spans (hquiet : ∀ c ∈ calls, Quiet c) : List.Forall₂ (Tells p) calls
    ((books p calls).observations.tracer.recorded.filter fun span => span.name = SPAN_NAME) := by
  induction calls using List.reverseRecOn with
  | nil => exact .nil
  | append_singleton calls c ih =>
    have hbefore := ih fun other hother => hquiet other (List.mem_append_left _ hother)
    obtain ⟨span, hrecorded, hname, htells⟩ := completeStructured_recorded p c (books p calls)
    have hothers : c.spans.filter (fun span => span.name = SPAN_NAME) = [] := by
      rw [List.filter_eq_nil_iff]
      intro other hother
      simpa using (hquiet c (by simp)).spans other hother
    rw [books_concat, hrecorded, List.filter_append, List.filter_append, hothers, List.nil_append,
      List.filter_cons_of_pos (by simpa using hname), List.filter_nil]
    exact List.rel_append hbefore (.cons htells .nil)

/-! ### Their counts -/

/-- What is counted for two runs is counted for both. -/
theorem countedFor_append (metric : PyStr) (calls calls' : List MetricsCall) :
    countedFor floats metric (calls ++ calls') =
      countedFor floats metric calls ++ countedFor floats metric calls' := by
  rw [countedFor, List.filterMap_append, List.filter_append]
  rfl

/-- An estimate is counted once under each metric. -/
theorem countedFor_count (hn : n ∈ counts) (e : CostEstimate) :
    countedFor floats n.1 (count e) = [((n.1, countedUnder floats e), n.2 e)] := by
  simp only [counts, List.mem_cons, List.not_mem_nil, or_false] at hn
  obtain rfl | rfl | rfl := hn <;> rfl

/-- A quiet call counts nothing under them itself. -/
theorem countedFor_quiet (h : Quiet c) (hn : n ∈ counts) : countedFor floats n.1 c.calls = [] := by
  rw [countedFor, List.filter_eq_nil_iff]
  intro entry hentry
  obtain ⟨call, hcall, hcounted⟩ := List.mem_filterMap.mp hentry
  have hmetric : entry.1.1 = metricOf call := by
    cases call with
    | increment metric labels amount =>
      obtain rfl := Option.some.inj hcounted
      rfl
    | observe metric milliseconds labels => cases hcounted
  rw [decide_eq_true_eq, hmetric]
  intro heq
  exact h.calls call hcall (heq ▸ List.mem_map_of_mem hn)

/-- The counters hold what the entries of the ledger have, where every call is `Quiet`. -/
theorem countedFor_books (hquiet : ∀ c ∈ calls, Quiet c) (hn : n ∈ counts) :
    countedFor floats n.1 (books p calls).observations.metrics =
      (books p calls).ledger.entries.map fun e => ((n.1, countedUnder floats e), n.2 e) := by
  rw [books_metrics, books_ledger]
  induction calls with
  | nil => rfl
  | cons c calls ih =>
    have hrest := ih fun other hother => hquiet other (List.mem_cons_of_mem c hother)
    rw [List.flatMap_cons, countedFor_append, countedFor_append, hrest,
      countedFor_quiet (hquiet c List.mem_cons_self) hn, List.nil_append]
    cases h : accounted p c with
    | none =>
      rw [List.filterMap_cons_none h]
      rfl
    | some e =>
      rw [List.filterMap_cons_some h, Option.elim_some, countedFor_count hn]
      rfl

end Calls

/-! ## The law -/

variable {p}

/-- The books agree, while no more series are counted than the cap and every call is `Quiet`. -/
theorem books_agree (floats : FloatText) (cap : Nat) (calls : List (ModelCall T))
    (hquiet : ∀ c ∈ calls, Quiet c)
    (hfew : ((books p calls).ledger.entries.map (countedUnder floats)).dedup.length ≤ cap) :
    Agree p floats cap calls := by
  -- The series of each counter are those of the models in the ledger
  have hfew' (n : PyStr × (CostEstimate → Int)) (hn : n ∈ counts) :
      ((countedFor floats n.1 (books p calls).observations.metrics).map Prod.fst).dedup.length ≤
        cap := by
    have hseries : (countedFor floats n.1 (books p calls).observations.metrics).map Prod.fst =
        ((books p calls).ledger.entries.map (countedUnder floats)).map (n.1, ·) := by
      rw [countedFor_books hquiet hn, List.map_map, List.map_map]
      rfl
    rw [hseries, List.dedup_map_of_injective (Prod.mk_right_injective n.1), List.length_map]
    exact hfew
  constructor
  case failed => exact fun c _ name isException houtcome => given_of_raised houtcome
  case billed =>
    intro c _ completion houtcome hbillable
    obtain ⟨e, he, hestimated⟩ := account_of_billable hbillable
    obtain ⟨hgiven, haccounted⟩ := given_of_ok houtcome he
    exact ⟨hgiven, e, haccounted, hestimated⟩
  case lost =>
    intro c _ completion houtcome hnegative
    obtain ⟨failure, hfailure⟩ := account_of_negative hnegative
    obtain ⟨hgiven, haccounted⟩ := given_of_error houtcome hfailure
    exact ⟨haccounted, failure.className, hgiven⟩
  case ledger => exact books_ledger p calls
  case spans => exact books_spans hquiet
  case totals =>
    intro n hn
    rw [total_of_few (hfew' n hn), countedFor_books hquiet hn, List.map_map]
    rfl
  case counters =>
    intro n hn provider model
    rw [counter_of_few (hfew' n hn), countedFor_books hquiet hn, List.filter_map, List.map_map]
    congr 2
    apply List.filter_congr
    intro e _
    simp

/-- An answer of a priced model, and then a failure. -/
def sonnetCalls : List (ModelCall Unit) :=
  [{ schema := lit "Answer"
     outcome := .returned
       { output := (), provider := lit "anthropic", model := sonnetName, stopReason := none,
         usage := { inputTokens := 1200, outputTokens := 350 }, latencyMs := 810 }
     spans := [], calls := [], drawn := 0, recorder := none, entered := 0, left := 1 },
   { schema := lit "Answer"
     outcome := .raised (lit "LLMTimeoutError") true
     spans := [], calls := [], drawn := 0, recorder := none, entered := 2, left := 32 }]

/-- The books of the example. -/
theorem books_agree_sonnet :
    Agree { name := lit "anthropic", pricing := sonnetOnly } noFloats 200 sonnetCalls := by
  apply books_agree
  · intro c hc
    simp only [sonnetCalls, List.mem_cons, List.not_mem_nil, or_false] at hc
    obtain rfl | rfl := hc
    · exact ⟨by simp, by simp⟩
    · exact ⟨by simp, by simp⟩
  · refine ((List.dedup_sublist _).length_le.trans (List.length_map _).le).trans ?_
    rw [books_ledger]
    exact (List.length_filterMap_le _ _).trans (by decide)

end NexaAssist.Spec.UsageAccounts
