import Mathlib.Algebra.Ring.Int.Defs
import Mathlib.Data.List.Lex
import Mathlib.Data.List.Sort
import Mathlib.Data.Prod.Lex
import Mathlib.Order.Fin.Basic
import NexaAssist.ForStd.CappedStore
import NexaAssist.ForStd.PyRepr
import NexaAssist.Observability.Spans

/-!
# Operational metrics

Counters and durations, each a store of series: a metric and its labels in a normal form. Past
a cap a metric takes no new series.
-/

namespace NexaAssist

open PyJson

/-- What the interpreter makes of floats: their `repr`, and `round(sum(values), 3)`. -/
structure FloatText where
  repr : Rat → PyStr
  roundedSum : List PyFloat → PyFloat

/-- Labels by name. -/
structure Labels where
  entries : PyDict PyStr PyValue
  distinct : (PyDict.keys entries).Nodup

/-- How many distinct label combinations one metric will track. -/
def MAX_SERIES_PER_METRIC : Nat := 200

/-- A metric, and labels in their normal form. -/
abbrev Series := PyStr × List (PyStr × PyStr)

namespace Metrics

/-- `str` of a label that is safe. -/
def strLabel (floats : FloatText) (value : PyValue) : PyStr :=
  strValue (fun _ => false) floats.repr value

/-- `_labels`: normalised into a sorted, content-free key. -/
def labels (floats : FloatText) : Option Labels → List (PyStr × PyStr)
  | none => []
  | some given =>
    let safe := sanitiseAttributes given.entries
    (safe.map fun entry => (entry.1, strLabel floats entry.2)).insertionSort fun a b =>
      toLex a ≤ toLex b

/-- The same labels in a different order are the same series. -/
theorem labels_perm (floats : FloatText) {given given' : Labels}
    (h : given.entries.Perm given'.entries) :
    labels floats (some given) = labels floats (some given') := by
  simp only [labels, sanitiseAttributes_eq given.distinct, sanitiseAttributes_eq given'.distinct]
  apply List.Perm.eq_of_pairwise
  · intro a b _ _ hab hba
    exact toLex.injective (le_antisymm hab hba)
  · exact List.pairwise_insertionSort _ _
  · exact List.pairwise_insertionSort _ _
  · refine (List.perm_insertionSort _ _).trans (.trans ?_ (List.perm_insertionSort _ _).symm)
    exact (h.map _).map _

/-- `_render`. -/
def render : Series → PyStr
  | (metric, []) => metric
  | (metric, labels) =>
    metric ++ lit "\x7b" ++ PyStr.join (lit ",") (labels.map fun l => l.1 ++ lit "=" ++ l.2) ++
      lit "\x7d"

end Metrics

/-- Counters and durations of one process. `dropped` names the metrics whose cap was logged. -/
structure InMemoryMetrics where
  maxSeries : Nat
  counters : PyDict Series Int
  durations : PyDict Series (List PyFloat)
  dropped : List PyStr

namespace InMemoryMetrics

variable (floats : FloatText)

def init (maxSeries : Nat) : InMemoryMetrics where
  maxSeries := maxSeries
  counters := []
  durations := []
  dropped := []

/-! ## Recording -/

/-- `_key`, and what it leaves of `_dropped`. -/
def key {α : Type} (m : InMemoryMetrics) (metric : PyStr) (labels : Option Labels)
    (store : PyDict Series α) : Option Series × List PyStr :=
  let key : Series := (metric, Metrics.labels floats labels)
  if (PyDict.get key store).isSome then (some key, m.dropped)
  else if m.maxSeries ≤ (CappedStore.seriesOf Prod.fst metric store).length then
    (none, if metric ∈ m.dropped then m.dropped else metric :: m.dropped)
  else (some key, m.dropped)

def increment (m : InMemoryMetrics) (metric : PyStr) (labels : Option Labels) (amount : Int) :
    InMemoryMetrics :=
  match m.key floats metric labels m.counters with
  | (none, dropped) => { m with dropped := dropped }
  | (some key, dropped) =>
    { m with
      counters := PyDict.set key ((PyDict.get key m.counters).getD 0 + amount) m.counters
      dropped := dropped }

def observe (m : InMemoryMetrics) (metric : PyStr) (milliseconds : PyFloat)
    (labels : Option Labels) : InMemoryMetrics :=
  match m.key floats metric labels m.durations with
  | (none, dropped) => { m with dropped := dropped }
  | (some key, dropped) =>
    { m with
      durations :=
        PyDict.set key ((PyDict.get key m.durations).getD [] ++ [milliseconds]) m.durations
      dropped := dropped }

/-- What is added to a counter. -/
def addCount (value : Option Int) (amount : Int) : Int := value.getD 0 + amount

/-- What is added to a duration. -/
def addDuration (values : Option (List PyFloat)) (milliseconds : PyFloat) : List PyFloat :=
  values.getD [] ++ [milliseconds]

/-- Amounts are summed. -/
theorem accumulate_addCount (value : Option Int) (amounts : List Int) :
    (CappedStore.accumulate addCount value amounts).getD 0 = value.getD 0 + amounts.sum := by
  induction amounts generalizing value with
  | nil => exact (Int.add_zero _).symm
  | cons amount amounts ih =>
    rw [CappedStore.accumulate, List.foldl_cons, ← CappedStore.accumulate, ih, List.sum_cons,
      Option.getD_some, addCount, Int.add_assoc]

/-- Times are listed. -/
theorem accumulate_addDuration (values : Option (List PyFloat)) (timed : List PyFloat) :
    (CappedStore.accumulate addDuration values timed).getD [] = values.getD [] ++ timed := by
  induction timed generalizing values with
  | nil => exact (List.append_nil _).symm
  | cons milliseconds timed ih =>
    rw [CappedStore.accumulate, List.foldl_cons, ← CappedStore.accumulate, ih, Option.getD_some,
      addDuration, List.append_assoc, List.singleton_append]

section Stores

variable {α : Type} (m : InMemoryMetrics) (metric : PyStr) (labels : Option Labels)

/-- `key` gives the series where it is admitted. -/
theorem key_of_admits {store : PyDict Series α}
    (h : CappedStore.admits Prod.fst m.maxSeries (metric, Metrics.labels floats labels) store =
      true) :
    m.key floats metric labels store = (some (metric, Metrics.labels floats labels), m.dropped) := by
  unfold CappedStore.admits at h
  simp only [key]
  split
  · rfl
  · rename_i hnew
    rw [Bool.not_eq_true] at hnew
    rw [hnew, Bool.false_or, decide_eq_true_eq] at h
    exact if_neg (Nat.not_le.mpr h)

/-- `key` gives no series where it is not admitted, and counts what is dropped. -/
theorem key_of_refused {store : PyDict Series α}
    (h : CappedStore.admits Prod.fst m.maxSeries (metric, Metrics.labels floats labels) store =
      false) :
    ∃ dropped, m.key floats metric labels store = (none, dropped) := by
  unfold CappedStore.admits at h
  rw [Bool.or_eq_false_iff, decide_eq_false_iff_not, Nat.not_lt] at h
  refine ⟨if metric ∈ m.dropped then m.dropped else metric :: m.dropped, ?_⟩
  simp only [key, h.1, Bool.false_eq_true, if_false]
  exact if_pos h.2

/-- `increment` records an amount. -/
@[simp]
theorem counters_increment (amount : Int) :
    (m.increment floats metric labels amount).counters =
      CappedStore.record Prod.fst m.maxSeries addCount m.counters
        (metric, Metrics.labels floats labels) amount := by
  cases h : CappedStore.admits Prod.fst m.maxSeries (metric, Metrics.labels floats labels)
      m.counters with
  | true =>
    rw [CappedStore.record_of_admits h, increment, m.key_of_admits floats metric labels h]
    rfl
  | false =>
    obtain ⟨dropped, hkey⟩ := m.key_of_refused floats metric labels h
    rw [CappedStore.record_of_refused h, increment, hkey]

/-- `observe` records a time. -/
@[simp]
theorem durations_observe (milliseconds : PyFloat) :
    (m.observe floats metric milliseconds labels).durations =
      CappedStore.record Prod.fst m.maxSeries addDuration m.durations
        (metric, Metrics.labels floats labels) milliseconds := by
  cases h : CappedStore.admits Prod.fst m.maxSeries (metric, Metrics.labels floats labels)
      m.durations with
  | true =>
    rw [CappedStore.record_of_admits h, observe, m.key_of_admits floats metric labels h]
    rfl
  | false =>
    obtain ⟨dropped, hkey⟩ := m.key_of_refused floats metric labels h
    rw [CappedStore.record_of_refused h, observe, hkey]

/-- `increment` leaves the times. -/
@[simp]
theorem durations_increment (amount : Int) :
    (m.increment floats metric labels amount).durations = m.durations := by
  unfold increment
  split <;> rfl

/-- `observe` leaves the amounts. -/
@[simp]
theorem counters_observe (milliseconds : PyFloat) :
    (m.observe floats metric milliseconds labels).counters = m.counters := by
  unfold observe
  split <;> rfl

/-- `increment` leaves the cap. -/
@[simp]
theorem maxSeries_increment (amount : Int) :
    (m.increment floats metric labels amount).maxSeries = m.maxSeries := by
  unfold increment
  split <;> rfl

/-- `observe` leaves the cap. -/
@[simp]
theorem maxSeries_observe (milliseconds : PyFloat) :
    (m.observe floats metric milliseconds labels).maxSeries = m.maxSeries := by
  unfold observe
  split <;> rfl

end Stores

/-! ## Reading -/

def counter (m : InMemoryMetrics) (metric : PyStr) (labels : Option Labels) : Int :=
  (PyDict.get (metric, Metrics.labels floats labels) m.counters).getD 0

/-- Every series for a counter, summed. -/
def total (m : InMemoryMetrics) (metric : PyStr) : Int :=
  ((m.counters.filter fun entry => entry.1.1 = metric).map Prod.snd).sum

def observations (m : InMemoryMetrics) (metric : PyStr) (labels : Option Labels) :
    List PyFloat :=
  (PyDict.get (metric, Metrics.labels floats labels) m.durations).getD []

/-- A readable summary of a duration. -/
structure DurationSummary where
  count : Nat
  totalMs : PyFloat

def summarise (values : List PyFloat) : DurationSummary where
  count := values.length
  totalMs := floats.roundedSum values

structure Snapshot where
  counters : PyDict PyStr Int
  durations : PyDict PyStr DurationSummary

/-- `{_render(*key): summary(value) for key, value in sorted(store.items(), key=...)}`. -/
def rendered {α β : Type} (summary : α → β) (store : PyDict Series α) : PyDict PyStr β :=
  PyDict.ofEntries
    ((store.insertionSort fun a b => Metrics.render a.1 ≤ Metrics.render b.1).map fun entry =>
      (Metrics.render entry.1, summary entry.2))

def snapshot (m : InMemoryMetrics) : Snapshot where
  counters := rendered id m.counters
  durations := rendered (summarise floats) m.durations

end InMemoryMetrics

/-! ## Calls -/

/-- A call of the metrics. -/
inductive MetricsCall
  | increment (metric : PyStr) (labels : Option Labels) (amount : Int)
  | observe (metric : PyStr) (milliseconds : PyFloat) (labels : Option Labels)

namespace MetricsCall

variable (floats : FloatText)

/-- The series a call is for. -/
def series : MetricsCall → Series
  | .increment metric labels _ => (metric, Metrics.labels floats labels)
  | .observe metric _ labels => (metric, Metrics.labels floats labels)

/-- What a call counts, and for which series. -/
def counted : MetricsCall → Option (Series × Int)
  | .increment metric labels amount => some ((metric, Metrics.labels floats labels), amount)
  | .observe .. => none

/-- What a call times, and for which series. -/
def timed : MetricsCall → Option (Series × PyFloat)
  | .increment .. => none
  | .observe metric milliseconds labels =>
    some ((metric, Metrics.labels floats labels), milliseconds)

def perform (m : InMemoryMetrics) : MetricsCall → InMemoryMetrics
  | .increment metric labels amount => m.increment floats metric labels amount
  | .observe metric milliseconds labels => m.observe floats metric milliseconds labels

end MetricsCall

end NexaAssist
