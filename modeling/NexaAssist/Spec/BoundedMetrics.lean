import NexaAssist.ForStd.List
import NexaAssist.Observability.Metrics

/-!
# Bounded and exact metrics

What any sequence of calls leaves of a process's metrics: no metric has more series than the
cap, a series that was admitted stays, and holds everything recorded for it since.
-/

namespace NexaAssist.Spec.BoundedMetrics

open PyJson

variable (floats : FloatText)

/-- Calls, one after another, of metrics that are new. -/
def run (maxSeries : Nat) (calls : List MetricsCall) : InMemoryMetrics :=
  calls.foldl (MetricsCall.perform floats) (.init maxSeries)

/-! ## The stores -/

variable {floats} {maxSeries : Nat} {calls before after : List MetricsCall} {call : MetricsCall}

/-- One more call is performed on what the others have left. -/
theorem run_concat (calls : List MetricsCall) (call : MetricsCall) :
    run floats maxSeries (calls ++ [call]) = call.perform floats (run floats maxSeries calls) := by
  rw [run, List.foldl_append]
  rfl

/-- No call changes the cap. -/
theorem maxSeries_run (calls : List MetricsCall) : (run floats maxSeries calls).maxSeries = maxSeries := by
  induction calls using List.reverseRecOn with
  | nil => rfl
  | append_singleton calls call ih =>
    rw [run_concat]
    cases call <;> simp [MetricsCall.perform, ih]

/-- The counters of a run are a capped store of what its calls count. -/
theorem counters_run (calls : List MetricsCall) : (run floats maxSeries calls).counters =
    CappedStore.run Prod.fst maxSeries InMemoryMetrics.addCount
      (calls.filterMap (MetricsCall.counted floats)) := by
  induction calls using List.reverseRecOn with
  | nil => rfl
  | append_singleton calls call ih =>
    rw [run_concat, List.filterMap_append]
    cases call with
    | increment metric labels amount =>
      rw [MetricsCall.perform, InMemoryMetrics.counters_increment, ih, maxSeries_run]
      exact (CappedStore.run_concat _ _).symm
    | observe metric milliseconds labels =>
      rw [MetricsCall.perform, InMemoryMetrics.counters_observe, ih]
      exact congrArg _ (List.append_nil _).symm

/-- The durations of a run are a capped store of what its calls time. -/
theorem durations_run (calls : List MetricsCall) : (run floats maxSeries calls).durations =
    CappedStore.run Prod.fst maxSeries InMemoryMetrics.addDuration
      (calls.filterMap (MetricsCall.timed floats)) := by
  induction calls using List.reverseRecOn with
  | nil => rfl
  | append_singleton calls call ih =>
    rw [run_concat, List.filterMap_append]
    cases call with
    | increment metric labels amount =>
      rw [MetricsCall.perform, InMemoryMetrics.durations_increment, ih]
      exact congrArg _ (List.append_nil _).symm
    | observe metric milliseconds labels =>
      rw [MetricsCall.perform, InMemoryMetrics.durations_observe, ih, maxSeries_run]
      exact (CappedStore.run_concat _ _).symm

/-- A series that is there was admitted by a call of its own, and holds what was recorded for it
    since. -/
theorem exists_admitting {α δ : Type} {cap : Nat} {add : Option α → δ → α}
    {entry : MetricsCall → Option (Series × δ)} {series : Series}
    (h : series ∈ PyDict.keys (CappedStore.run Prod.fst cap add (calls.filterMap entry))) :
    ∃ before call after, calls = before ++ call :: after ∧
      series ∉ PyDict.keys (CappedStore.run Prod.fst cap add (before.filterMap entry)) ∧
      series ∈ PyDict.keys (CappedStore.run Prod.fst cap add ((before ++ [call]).filterMap entry)) ∧
      PyDict.get series (CappedStore.run Prod.fst cap add (calls.filterMap entry)) =
        CappedStore.accumulate add none
          (CappedStore.entriesOf series ((call :: after).filterMap entry)) := by
  obtain ⟨entries, x, rest, heq, hnew, hadmitted⟩ := CappedStore.exists_admission h
  obtain ⟨before, others, hcalls, hbefore, hothers⟩ := List.filterMap_eq_append_iff.mp heq
  obtain ⟨skipped, call, after, hsplit, hskipped, hcall, hafter⟩ :=
    List.filterMap_eq_cons_iff.mp hothers
  -- The calls in between record nothing.
  have hall : (before ++ skipped).filterMap entry = entries := by
    rw [List.filterMap_append, hbefore, List.filterMap_eq_nil_iff.mpr hskipped, List.append_nil]
  have hlast : [call].filterMap entry = [(series, x)] := by
    rw [List.filterMap_cons, hcall]
    rfl
  refine ⟨before ++ skipped, call, after, ?_, ?_, ?_, ?_⟩
  · rw [hcalls, hsplit, List.append_assoc]
  · rwa [hall]
  · rw [List.filterMap_append, hall, hlast]
    exact hadmitted
  · rw [heq, CappedStore.get_run_admitted hnew hadmitted, List.filterMap_cons, hcall, ← hafter]
    simp [CappedStore.entriesOf]

/-! ## The law -/

variable (floats maxSeries calls)

/-- What the calls count for a series. -/
def amounts (series : Series) (calls : List MetricsCall) : List Int :=
  CappedStore.entriesOf series (calls.filterMap (MetricsCall.counted floats))

/-- What the calls time for a series. -/
def timings (series : Series) (calls : List MetricsCall) : List PyFloat :=
  CappedStore.entriesOf series (calls.filterMap (MetricsCall.timed floats))

/-- The series of the counters, after some calls. -/
def counted (calls : List MetricsCall) : List Series := PyDict.keys (run floats maxSeries calls).counters

/-- The series of the durations. -/
def timed (calls : List MetricsCall) : List Series := PyDict.keys (run floats maxSeries calls).durations

/-- Whether a call was for a series that is not there after it. -/
def Refused (before : List MetricsCall) (call : MetricsCall) : Prop :=
  match call with
  | .increment .. => call.series floats ∉ counted floats maxSeries (before ++ [call])
  | .observe .. => call.series floats ∉ timed floats maxSeries (before ++ [call])

/-- A metric takes a call for a series that it has, and for a new one while it has fewer series than
    the cap. -/
def HasRoom (there : List Series) (series : Series) : Prop :=
  series ∈ there ∨ (there.filter fun other => other.1 = series.1).length < maxSeries

/-- A call is admitted exactly when there is room for it, and then it is counted. -/
def Admitted (before : List MetricsCall) (call : MetricsCall) : Prop :=
  match call with
  | .increment metric labels amount =>
    let series := (metric, Metrics.labels floats labels)
    (series ∈ counted floats maxSeries (before ++ [call]) ↔
        HasRoom maxSeries (counted floats maxSeries before) series) ∧
      (HasRoom maxSeries (counted floats maxSeries before) series →
        (run floats maxSeries (before ++ [call])).counter floats metric labels =
          (run floats maxSeries before).counter floats metric labels + amount)
  | .observe metric milliseconds labels =>
    let series := (metric, Metrics.labels floats labels)
    (series ∈ timed floats maxSeries (before ++ [call]) ↔
        HasRoom maxSeries (timed floats maxSeries before) series) ∧
      (HasRoom maxSeries (timed floats maxSeries before) series →
        (run floats maxSeries (before ++ [call])).observations floats metric labels =
          (run floats maxSeries before).observations floats metric labels ++ [milliseconds])

/-- What is known of the metrics after any calls. -/
structure BoundedAndExact : Prop where
  distinct : (counted floats maxSeries calls).Nodup ∧ (timed floats maxSeries calls).Nodup
  bounded : ∀ metric,
    ((counted floats maxSeries calls).filter fun series => series.1 = metric).length ≤ maxSeries ∧
      ((timed floats maxSeries calls).filter fun series => series.1 = metric).length ≤ maxSeries
  /-- No series is dropped. -/
  kept : ∀ before after, calls = before ++ after →
    counted floats maxSeries before ⊆ counted floats maxSeries calls ∧
      timed floats maxSeries before ⊆ timed floats maxSeries calls
  /-- A counter is the sum of the increments of its normal form since it was admitted. -/
  counter : ∀ metric labels, let series := (metric, Metrics.labels floats labels)
    (series ∉ counted floats maxSeries calls ∧
        (run floats maxSeries calls).counter floats metric labels = 0) ∨
      ∃ before call after, calls = before ++ call :: after ∧
        series ∉ counted floats maxSeries before ∧
        series ∈ counted floats maxSeries (before ++ [call]) ∧
        (run floats maxSeries calls).counter floats metric labels =
          (amounts floats series (call :: after)).sum
  /-- And no observation is lost either. -/
  observations : ∀ metric labels, let series := (metric, Metrics.labels floats labels)
    (series ∉ timed floats maxSeries calls ∧
        (run floats maxSeries calls).observations floats metric labels = []) ∨
      ∃ before call after, calls = before ++ call :: after ∧
        series ∉ timed floats maxSeries before ∧
        series ∈ timed floats maxSeries (before ++ [call]) ∧
        (run floats maxSeries calls).observations floats metric labels =
          timings floats series (call :: after)
  /-- The order of labels makes no difference, when they are recorded or read. -/
  unordered : ∀ metric (given given' : Labels), given.entries.Perm given'.entries →
    (run floats maxSeries calls).counter floats metric (some given) =
        (run floats maxSeries calls).counter floats metric (some given') ∧
      ∀ amount, (run floats maxSeries calls).increment floats metric (some given) amount =
        (run floats maxSeries calls).increment floats metric (some given') amount
  /-- A total is the sum over the series that were admitted. -/
  total : ∀ metric, ∃ labelled : List (Option Labels),
    (labelled.map fun labels => (metric, Metrics.labels floats labels)) =
        (counted floats maxSeries calls).filter (fun series => series.1 = metric) ∧
      (run floats maxSeries calls).total metric =
        (labelled.map fun labels => (run floats maxSeries calls).counter floats metric labels).sum
  /-- Every call for a series that is known, or new where the metric has room, is counted. -/
  admitted : ∀ before call after, calls = before ++ call :: after →
    Admitted floats maxSeries before call
  /-- A refused call changes no number. -/
  refused : ∀ before call after, calls = before ++ call :: after →
    Refused floats maxSeries before call →
    (run floats maxSeries (before ++ [call])).counters = (run floats maxSeries before).counters ∧
      (run floats maxSeries (before ++ [call])).durations = (run floats maxSeries before).durations

variable {floats maxSeries calls}

/-- What is counted are the keys of the capped store of counters. -/
theorem counted_eq (calls : List MetricsCall) : counted floats maxSeries calls =
    PyDict.keys (CappedStore.run Prod.fst maxSeries InMemoryMetrics.addCount
      (calls.filterMap (MetricsCall.counted floats))) := by
  rw [counted, counters_run]

/-- The series that are timed are the keys of the capped store of durations. -/
theorem timed_eq (calls : List MetricsCall) : timed floats maxSeries calls =
    PyDict.keys (CappedStore.run Prod.fst maxSeries InMemoryMetrics.addDuration
      (calls.filterMap (MetricsCall.timed floats))) := by
  rw [timed, durations_run]

/-- No series is there twice. -/
theorem nodup_keys_run (floats : FloatText) (maxSeries : Nat) (calls : List MetricsCall) :
    (PyDict.keys (run floats maxSeries calls).counters).Nodup ∧
      (PyDict.keys (run floats maxSeries calls).durations).Nodup := by
  rw [counters_run, durations_run]
  exact ⟨CappedStore.nodup_run _, CappedStore.nodup_run _⟩

/-- A series that is counted stays counted. -/
theorem counted_append : counted floats maxSeries before ⊆
    counted floats maxSeries (before ++ after) := by
  intro series h
  rw [counted_eq] at h ⊢
  rw [List.filterMap_append]
  exact CappedStore.mem_run_append h

/-- A series that is timed stays timed. -/
theorem timed_append : timed floats maxSeries before ⊆
    timed floats maxSeries (before ++ after) := by
  intro series h
  rw [timed_eq] at h ⊢
  rw [List.filterMap_append]
  exact CappedStore.mem_run_append h

/-- A counter is nothing, or the sum since its series was admitted. -/
theorem counter_law (metric : PyStr) (labels : Option Labels) :
    ((metric, Metrics.labels floats labels) ∉ counted floats maxSeries calls ∧
        (run floats maxSeries calls).counter floats metric labels = 0) ∨
      ∃ before call after, calls = before ++ call :: after ∧
        (metric, Metrics.labels floats labels) ∉ counted floats maxSeries before ∧
        (metric, Metrics.labels floats labels) ∈ counted floats maxSeries (before ++ [call]) ∧
        (run floats maxSeries calls).counter floats metric labels =
          (amounts floats (metric, Metrics.labels floats labels) (call :: after)).sum := by
  by_cases h : (metric, Metrics.labels floats labels) ∈ counted floats maxSeries calls
  · rw [counted_eq] at h
    obtain ⟨before, call, after, hcalls, hnew, hadmitted, hget⟩ := exists_admitting h
    refine .inr ⟨before, call, after, hcalls, ?_, ?_, ?_⟩
    · rwa [counted_eq]
    · rwa [counted_eq]
    · rw [InMemoryMetrics.counter, counters_run, hget, InMemoryMetrics.accumulate_addCount,
        Option.getD_none, Int.zero_add, amounts]
  · refine .inl ⟨h, ?_⟩
    rw [InMemoryMetrics.counter, PyDict.get_eq_none_iff.mpr h, Option.getD_none]

/-- The observations of a series are none, or those since it was admitted. -/
theorem observations_law (metric : PyStr) (labels : Option Labels) :
    ((metric, Metrics.labels floats labels) ∉ timed floats maxSeries calls ∧
        (run floats maxSeries calls).observations floats metric labels = []) ∨
      ∃ before call after, calls = before ++ call :: after ∧
        (metric, Metrics.labels floats labels) ∉ timed floats maxSeries before ∧
        (metric, Metrics.labels floats labels) ∈ timed floats maxSeries (before ++ [call]) ∧
        (run floats maxSeries calls).observations floats metric labels =
          timings floats (metric, Metrics.labels floats labels) (call :: after) := by
  by_cases h : (metric, Metrics.labels floats labels) ∈ timed floats maxSeries calls
  · rw [timed_eq] at h
    obtain ⟨before, call, after, hcalls, hnew, hadmitted, hget⟩ := exists_admitting h
    refine .inr ⟨before, call, after, hcalls, ?_, ?_, ?_⟩
    · rwa [timed_eq]
    · rwa [timed_eq]
    · rw [InMemoryMetrics.observations, durations_run, hget,
        InMemoryMetrics.accumulate_addDuration, Option.getD_none, List.nil_append, timings]
  · refine .inl ⟨h, ?_⟩
    rw [InMemoryMetrics.observations, PyDict.get_eq_none_iff.mpr h, Option.getD_none]

/-- A series is a normal form of labels that a call gave. -/
theorem exists_labels {series : Series} (h : series ∈ counted floats maxSeries calls) :
    ∃ labels, (series.1, Metrics.labels floats labels) = series := by
  rw [counted_eq] at h
  obtain ⟨before, x, after, heq, -⟩ := CappedStore.exists_admission h
  have hmem : (series, x) ∈ calls.filterMap (MetricsCall.counted floats) := by
    rw [heq]
    exact List.mem_append_right _ List.mem_cons_self
  obtain ⟨call, -, hcall⟩ := List.mem_filterMap.mp hmem
  cases call with
  | increment metric labels amount =>
    have hseries : (metric, Metrics.labels floats labels) = series :=
      congrArg Prod.fst (Option.some.inj hcall)
    exact ⟨labels, hseries ▸ rfl⟩
  | observe metric milliseconds labels => exact nomatch hcall

/-- A total is the sum of the counted series of the metric. -/
theorem total_law (metric : PyStr) : ∃ labelled : List (Option Labels),
    (labelled.map fun labels => (metric, Metrics.labels floats labels)) =
        (counted floats maxSeries calls).filter (fun series => series.1 = metric) ∧
      (run floats maxSeries calls).total metric =
        (labelled.map fun labels => (run floats maxSeries calls).counter floats metric labels).sum := by
  have hlabels : ∀ series ∈ (counted floats maxSeries calls).filter (fun s => s.1 = metric),
      ∃ labels, (metric, Metrics.labels floats labels) = series := by
    intro series hseries
    obtain ⟨hmem, hmetric⟩ := List.mem_filter.mp hseries
    rw [← of_decide_eq_true hmetric]
    exact exists_labels hmem
  obtain ⟨labelled, hlabelled⟩ := List.exists_forall₂ hlabels
  have hkeys : (labelled.map fun labels => (metric, Metrics.labels floats labels)) =
      (counted floats maxSeries calls).filter fun series => series.1 = metric := by
    rw [← List.map_id ((counted floats maxSeries calls).filter _)]
    exact hlabelled.map_eq fun _ _ h => h
  refine ⟨labelled, hkeys, ?_⟩
  have hdistinct := (nodup_keys_run floats maxSeries calls).1
  have hvalues := PyDict.map_snd_filter hdistinct (fun series => series.1 = metric) 0
  rw [InMemoryMetrics.total, hvalues, ← counted, ← hkeys, List.map_map]
  rfl

/-- A call that is refused changes no series. -/
theorem refused_law (h : Refused floats maxSeries before call) :
    (run floats maxSeries (before ++ [call])).counters = (run floats maxSeries before).counters ∧
      (run floats maxSeries (before ++ [call])).durations =
        (run floats maxSeries before).durations := by
  cases call with
  | increment metric labels amount =>
    rw [Refused, counted, run_concat, MetricsCall.perform, InMemoryMetrics.counters_increment] at h
    rw [run_concat, MetricsCall.perform, InMemoryMetrics.counters_increment,
      InMemoryMetrics.durations_increment]
    exact ⟨CappedStore.refused_of_notMem h, rfl⟩
  | observe metric milliseconds labels =>
    rw [Refused, timed, run_concat, MetricsCall.perform, InMemoryMetrics.durations_observe] at h
    rw [run_concat, MetricsCall.perform, InMemoryMetrics.counters_observe,
      InMemoryMetrics.durations_observe]
    exact ⟨rfl, CappedStore.refused_of_notMem h⟩

/-- `increment` and `observe` take what there is room for, and add to what the series holds. -/
theorem admitted_law (before : List MetricsCall) (call : MetricsCall) :
    Admitted floats maxSeries before call := by
  cases call with
  | increment metric labels amount =>
    -- The series of the counters are those of a store with a cap
    have hmem : (metric, Metrics.labels floats labels) ∈
        counted floats maxSeries (before ++ [.increment metric labels amount]) ↔
        HasRoom maxSeries (counted floats maxSeries before)
          (metric, Metrics.labels floats labels) := by
      rw [counted, run_concat, MetricsCall.perform, InMemoryMetrics.counters_increment,
        maxSeries_run, CappedStore.mem_record_self_iff, CappedStore.admits_iff]
      rfl
    refine ⟨hmem, fun hroom => ?_⟩
    have hadmits := hmem.mpr hroom
    rw [counted, run_concat, MetricsCall.perform, InMemoryMetrics.counters_increment,
      CappedStore.mem_record_self_iff] at hadmits
    rw [run_concat, MetricsCall.perform, InMemoryMetrics.counter,
      InMemoryMetrics.counters_increment, CappedStore.get_record_of_admits hadmits]
    rfl
  | observe metric milliseconds labels =>
    have hmem : (metric, Metrics.labels floats labels) ∈
        timed floats maxSeries (before ++ [.observe metric milliseconds labels]) ↔
        HasRoom maxSeries (timed floats maxSeries before)
          (metric, Metrics.labels floats labels) := by
      rw [timed, run_concat, MetricsCall.perform, InMemoryMetrics.durations_observe,
        maxSeries_run, CappedStore.mem_record_self_iff, CappedStore.admits_iff]
      rfl
    refine ⟨hmem, fun hroom => ?_⟩
    have hadmits := hmem.mpr hroom
    rw [timed, run_concat, MetricsCall.perform, InMemoryMetrics.durations_observe,
      CappedStore.mem_record_self_iff] at hadmits
    rw [run_concat, MetricsCall.perform, InMemoryMetrics.observations,
      InMemoryMetrics.durations_observe, CappedStore.get_record_of_admits hadmits]
    rfl

/-- Metrics stay bounded, and exact, whatever is recorded. -/
theorem bounded_and_exact (floats : FloatText) (maxSeries : Nat) (calls : List MetricsCall) :
    BoundedAndExact floats maxSeries calls where
  distinct := nodup_keys_run floats maxSeries calls
  bounded metric := by
    rw [counted_eq, timed_eq]
    exact ⟨CappedStore.length_seriesOf_run _ metric, CappedStore.length_seriesOf_run _ metric⟩
  kept before after hcalls := by
    rw [hcalls]
    exact ⟨counted_append, timed_append⟩
  counter := counter_law
  observations := observations_law
  unordered metric given given' hperm := by
    have hlabels := Metrics.labels_perm floats hperm
    refine ⟨?_, fun amount => ?_⟩
    · rw [InMemoryMetrics.counter, hlabels, InMemoryMetrics.counter]
    · unfold InMemoryMetrics.increment InMemoryMetrics.key
      rw [hlabels]
  total := total_law
  admitted before call _ _ := admitted_law before call
  refused before call after _ := refused_law

/-- An interpreter that writes no float. -/
def noFloats : FloatText where
  repr _ := []
  roundedSum _ := .finite 0

end NexaAssist.Spec.BoundedMetrics
