import Mathlib.Algebra.BigOperators.Group.List.Basic
import Mathlib.Algebra.Group.Int.Defs
import NexaAssist.Spec.BoundedMetrics

/-!
# Snapshots

When a snapshot of the metrics loses no series. It names a series by its text, in which the
commas between labels are not told from commas in a label.
-/

namespace NexaAssist.Spec.Snapshots

open PyJson NexaAssist.Spec.BoundedMetrics

/-! ## Texts of series -/

/-- What a label reads as. -/
def field (label : PyStr × PyStr) : PyStr := label.1 ++ lit "=" ++ label.2

/-- Labels, cut at every comma there is. -/
def pieces (labels : List (PyStr × PyStr)) : List PyStr :=
  (labels.map field).flatMap (List.splitOn 0x2c)

/-- What stands between the braces. -/
def inner (labels : List (PyStr × PyStr)) : PyStr := PyStr.join [0x2c] (labels.map field)

/-- The second metric's name goes on where the first one's labels begin, and holds them up to a
    brace. -/
def Swallows (s t : Series) : Prop :=
  s.2 ≠ [] ∧ ∃ rest, t.1 = s.1 ++ 0x7b :: rest ∧
    (t.2 = [] ∧ rest = inner s.2 ++ [0x7d] ∨ t.2 ≠ [] ∧ inner s.2 = rest ++ 0x7b :: inner t.2)

/-- Two series that are not told apart. -/
def Confused (s t : Series) : Prop :=
  s.1 = t.1 ∧ s.2 ≠ [] ∧ t.2 ≠ [] ∧ pieces s.2 = pieces t.2 ∨ Swallows s t ∨ Swallows t s

/-- What follows a metric. -/
def tail : List (PyStr × PyStr) → PyStr
  | [] => []
  | labels => 0x7b :: (inner labels ++ [0x7d])

/-- Labels stand between braces. -/
theorem tail_of_ne_nil {labels : List (PyStr × PyStr)} (h : labels ≠ []) :
    tail labels = 0x7b :: (inner labels ++ [0x7d]) := by
  cases labels with
  | nil => exact absurd rfl h
  | cons label labels => rfl

/-- `render` puts the metric before its labels. -/
theorem render_eq (s : Series) : Metrics.render s = s.1 ++ tail s.2 := by
  obtain ⟨metric, labels⟩ := s
  cases labels with
  | nil => exact (List.append_nil _).symm
  | cons label labels =>
    rw [Metrics.render, List.append_assoc, List.append_assoc]
    · rfl
    · exact nofun

/-- Labels read the same just if their pieces between commas do. -/
theorem inner_eq_iff {labels labels' : List (PyStr × PyStr)} (h : labels ≠ []) (h' : labels' ≠ []) :
    inner labels = inner labels' ↔ pieces labels = pieces labels' :=
  PyStr.join_eq_join_iff 0x2c (mt List.map_eq_nil_iff.mp h) (mt List.map_eq_nil_iff.mp h')

/-- Only where there are no labels nothing is written. -/
theorem tail_eq_nil_iff {labels : List (PyStr × PyStr)} : tail labels = [] ↔ labels = [] := by
  cases labels with
  | nil => exact ⟨fun _ => rfl, fun _ => rfl⟩
  | cons label labels =>
    constructor
    · intro h
      cases h
    · intro h
      cases h

/-- A series swallows another just if the name of the other begins with its own and goes on into its
    labels, and the two texts end alike. -/
theorem swallows_iff {s t : Series} : Swallows s t ↔
    ∃ c rest, t.1 = s.1 ++ c :: rest ∧ tail s.2 = c :: (rest ++ tail t.2) := by
  constructor
  · rintro ⟨hs, rest, ht, ⟨hempty, hrest⟩ | ⟨hlabels, hinner⟩⟩
    · refine ⟨0x7b, rest, ht, ?_⟩
      rw [tail_of_ne_nil hs, hempty, hrest, tail, List.append_nil]
    · refine ⟨0x7b, rest, ht, ?_⟩
      rw [tail_of_ne_nil hs, tail_of_ne_nil hlabels, hinner, List.append_assoc, List.cons_append]
  · rintro ⟨c, rest, ht, htail⟩
    have hs : s.2 ≠ [] := by
      intro hempty
      rw [hempty] at htail
      exact nomatch htail
    rw [tail_of_ne_nil hs, List.cons.injEq] at htail
    obtain ⟨rfl, hrest⟩ := htail
    refine ⟨hs, rest, ht, ?_⟩
    by_cases hlabels : t.2 = []
    · rw [hlabels, tail, List.append_nil] at hrest
      exact .inl ⟨hlabels, hrest.symm⟩
    · rw [tail_of_ne_nil hlabels, ← List.cons_append, ← List.append_assoc,
        List.append_cancel_right_eq] at hrest
      exact .inr ⟨hlabels, hrest⟩

/-- Series of one metric that read the same are one, or confused. -/
theorem confused_of_tail_eq {s t : Series} (hmetric : s.1 = t.1) (htail : tail s.2 = tail t.2) :
    s = t ∨ Confused s t := by
  by_cases hs : s.2 = []
  · have ht : t.2 = [] := by rwa [← tail_eq_nil_iff, ← htail, tail_eq_nil_iff]
    exact .inl (Prod.ext hmetric (hs.trans ht.symm))
  · have ht : t.2 ≠ [] := by rwa [Ne, ← tail_eq_nil_iff, ← htail, tail_eq_nil_iff]
    rw [tail_of_ne_nil hs, tail_of_ne_nil ht, List.cons.injEq, List.append_cancel_right_eq] at htail
    exact .inr (.inl ⟨hmetric, hs, ht, (inner_eq_iff hs ht).mp htail.2⟩)

/-- Two series read alike only where they are confused. -/
theorem render_eq_iff {s t : Series} :
    Metrics.render s = Metrics.render t ↔ s = t ∨ Confused s t := by
  rw [render_eq, render_eq]
  constructor
  · intro h
    rcases List.append_eq_append_iff.mp h with ⟨r, ht, htail⟩ | ⟨r, hs, htail⟩
    · cases r with
      | nil =>
        rw [List.append_nil] at ht
        exact confused_of_tail_eq ht.symm htail
      | cons c rest => exact .inr (.inr (.inl (swallows_iff.mpr ⟨c, rest, ht, htail⟩)))
    · cases r with
      | nil =>
        rw [List.append_nil] at hs
        exact confused_of_tail_eq hs htail.symm
      | cons c rest => exact .inr (.inr (.inr (swallows_iff.mpr ⟨c, rest, hs, htail⟩)))
  · rintro (rfl | ⟨hmetric, hs, ht, hpieces⟩ | h | h)
    · rfl
    · rw [hmetric, tail_of_ne_nil hs, tail_of_ne_nil ht, (inner_eq_iff hs ht).mpr hpieces]
    · obtain ⟨c, rest, ht, htail⟩ := swallows_iff.mp h
      rw [htail, ht, List.append_assoc, List.cons_append]
    · obtain ⟨c, rest, hs, htail⟩ := swallows_iff.mp h
      rw [htail, hs, List.append_assoc, List.cons_append]

/-- A series of which no name holds what separates names in the text. -/
def Plain (s : Series) : Prop :=
  0x7b ∉ s.1 ∧ ∀ label ∈ s.2, 0x2c ∉ label.1 ∧ 0x3d ∉ label.1 ∧ 0x2c ∉ label.2

/-- Plain labels are the pieces. -/
theorem pieces_of_plain {labels : List (PyStr × PyStr)}
    (h : ∀ label ∈ labels, 0x2c ∉ label.1 ∧ 0x3d ∉ label.1 ∧ 0x2c ∉ label.2) :
    pieces labels = labels.map field := by
  induction labels with
  | nil => rfl
  | cons label labels ih =>
    obtain ⟨hname, -, hvalue⟩ := h label List.mem_cons_self
    have hcomma : 0x2c ∉ field label := by
      rw [field, List.mem_append, List.mem_append]
      rintro ((hmem | hmem) | hmem)
      · exact hname hmem
      · exact absurd hmem (by decide)
      · exact hvalue hmem
    rw [pieces, List.map_cons, List.flatMap_cons, List.splitOn_eq_singleton hcomma, ← pieces,
      ih fun other hother => h other (List.mem_cons_of_mem _ hother)]
    rfl

/-- Without an equals sign in the name a label reads as itself only. -/
theorem field_inj {label label' : PyStr × PyStr} (h : 0x3d ∉ label.1) (h' : 0x3d ∉ label'.1)
    (heq : field label = field label') : label = label' := by
  rw [field, field, List.append_assoc, List.append_assoc] at heq
  obtain ⟨hname, hvalue⟩ := List.append_cons_inj_of_notMem_left h h' heq
  exact Prod.ext hname hvalue

/-- Lists of labels without a `=` in their names read the same only if they are the same. -/
theorem map_field_inj {labels labels' : List (PyStr × PyStr)}
    (h : ∀ label ∈ labels, 0x3d ∉ label.1) (h' : ∀ label ∈ labels', 0x3d ∉ label.1)
    (heq : labels.map field = labels'.map field) : labels = labels' := by
  induction labels generalizing labels' with
  | nil => exact (List.map_eq_nil_iff.mp heq.symm).symm
  | cons label labels ih =>
    cases labels' with
    | nil => exact nomatch heq
    | cons label' labels' =>
      rw [List.map_cons, List.map_cons, List.cons.injEq] at heq
      have hfirst := field_inj (h _ List.mem_cons_self) (h' _ List.mem_cons_self) heq.1
      have hrest := ih (fun l hl => h l (List.mem_cons_of_mem _ hl))
        (fun l hl => h' l (List.mem_cons_of_mem _ hl)) heq.2
      rw [hfirst, hrest]

/-- A plain series swallows no other. -/
theorem not_swallows_of_plain {s t : Series} (ht : Plain t) : ¬ Swallows s t := by
  rintro ⟨-, rest, hmetric, -⟩
  apply ht.1
  rw [hmetric]
  exact List.mem_append_right _ List.mem_cons_self

/-- Series with plain names are told apart. -/
theorem not_confused_of_plain {s t : Series} (hs : Plain s) (ht : Plain t) (hne : s ≠ t) :
    ¬ Confused s t := by
  rintro (⟨hmetric, -, -, hpieces⟩ | h | h)
  · rw [pieces_of_plain hs.2, pieces_of_plain ht.2] at hpieces
    have hlabels := map_field_inj (fun l hl => (hs.2 l hl).2.1) (fun l hl => (ht.2 l hl).2.1)
      hpieces
    exact hne (Prod.ext hmetric hlabels)
  · exact not_swallows_of_plain ht h
  · exact not_swallows_of_plain hs h

/-! ## Stores of series -/

section Stores

variable {α β : Type} {summary : α → β} {store : PyDict Series α}

/-- A store in the order of its texts. -/
def sorted (store : PyDict Series α) : PyDict Series α :=
  store.insertionSort fun a b => Metrics.render a.1 ≤ Metrics.render b.1

/-- Its entries, under their texts. -/
def named (summary : α → β) (store : PyDict Series α) : List (PyStr × β) :=
  (sorted store).map fun entry => (Metrics.render entry.1, summary entry.2)

/-- The names are the rendered series. -/
theorem keys_named : (PyDict.keys (named summary store)).Perm
    ((PyDict.keys store).map Metrics.render) := by
  have hsorted : (sorted store).Perm store := List.perm_insertionSort _ _
  rw [PyDict.keys, named, List.map_map, PyDict.keys, List.map_map]
  exact hsorted.map _

/-- The names of a store are apart just if no two of its series read the same. -/
theorem nodup_named_iff (hstore : (PyDict.keys store).Nodup) :
    (PyDict.keys (named summary store)).Nodup ↔
      ∀ s ∈ PyDict.keys store, ∀ t ∈ PyDict.keys store,
        Metrics.render s = Metrics.render t → s = t := by
  rw [keys_named.nodup_iff, List.nodup_map_iff_inj_on hstore]

/-- A snapshot has an entry for each series just where no two of them read alike. -/
theorem length_rendered (hstore : (PyDict.keys store).Nodup) :
    (InMemoryMetrics.rendered summary store).length ≤ store.length ∧
      ((InMemoryMetrics.rendered summary store).length = store.length ↔
        ∀ s ∈ PyDict.keys store, ∀ t ∈ PyDict.keys store,
          Metrics.render s = Metrics.render t → s = t) := by
  have hlength : (named summary store).length = store.length := by
    rw [named, List.length_map]
    exact List.length_insertionSort _ _
  rw [← nodup_named_iff hstore, ← hlength]
  exact PyDict.length_ofEntries _

/-- Each series has an entry of its own, and it is the series' own. -/
def Shown (summary : α → β) (store : PyDict Series α) (shown : PyDict PyStr β) : Prop :=
  ∃ name : Series → PyStr,
    (∀ s ∈ PyDict.keys store, ∀ t ∈ PyDict.keys store, name s = name t → s = t) ∧
      ∀ s ∈ PyDict.keys store, PyDict.get (name s) shown = (PyDict.get s store).map summary

/-- No two series of a store are confused. -/
def ToldApart (store : PyDict Series α) : Prop :=
  ∀ s ∈ PyDict.keys store, ∀ t ∈ PyDict.keys store, s ≠ t → ¬ Confused s t

/-- `ToldApart` says that no two series of the store read the same. -/
theorem toldApart_iff : ToldApart store ↔ ∀ s ∈ PyDict.keys store, ∀ t ∈ PyDict.keys store,
    Metrics.render s = Metrics.render t → s = t := by
  constructor
  · intro h s hs t ht hrender
    by_contra hne
    exact h s hs t ht hne ((render_eq_iff.mp hrender).resolve_left hne)
  · intro h s hs t ht hne hconfused
    exact hne (h s hs t ht (render_eq_iff.mpr (.inr hconfused)))

/-- Where all are told apart, a snapshot is the store under its texts. -/
theorem rendered_of_toldApart (hstore : (PyDict.keys store).Nodup) (h : ToldApart store) :
    InMemoryMetrics.rendered summary store = named summary store :=
  PyDict.ofEntries_eq ((nodup_named_iff hstore).mpr (toldApart_iff.mp h))

/-- Names of their own for the series need as many entries. -/
theorem toldApart_of_shown (hstore : (PyDict.keys store).Nodup)
    (h : Shown summary store (InMemoryMetrics.rendered summary store)) : ToldApart store := by
  obtain ⟨name, hinj, hget⟩ := h
  obtain ⟨hle, hiff⟩ := length_rendered hstore
  have hnames : ((PyDict.keys store).map name).Nodup :=
    (List.nodup_map_iff_inj_on hstore).mpr hinj
  have hsubset : (PyDict.keys store).map name ⊆
      PyDict.keys (InMemoryMetrics.rendered summary store) := by
    intro text htext
    obtain ⟨s, hs, rfl⟩ := List.mem_map.mp htext
    by_contra hnone
    rw [← PyDict.get_eq_none_iff, hget s hs, Option.map_eq_none_iff, PyDict.get_eq_none_iff] at hnone
    exact hnone hs
  have hlength := (List.subperm_of_subset hnames hsubset).length_le
  rw [PyDict.keys, PyDict.keys, List.length_map, List.length_map, List.length_map] at hlength
  exact toldApart_iff.mpr (hiff.mp (Nat.le_antisymm hle hlength))

/-- Where they are, all are shown. -/
theorem shown_of_toldApart (hstore : (PyDict.keys store).Nodup) (h : ToldApart store) :
    Shown summary store (InMemoryMetrics.rendered summary store) := by
  refine ⟨Metrics.render, toldApart_iff.mp h, fun s hs => ?_⟩
  rw [rendered_of_toldApart hstore h]
  cases hvalue : PyDict.get s store with
  | none => exact absurd hs (PyDict.get_eq_none_iff.mp hvalue)
  | some value =>
    have hsorted : (s, value) ∈ sorted store :=
      (List.perm_insertionSort _ _).mem_iff.mpr (PyDict.mem_of_get hvalue)
    have hmem : (Metrics.render s, summary value) ∈ named summary store :=
      List.mem_map.mpr ⟨(s, value), hsorted, rfl⟩
    exact PyDict.get_of_mem ((nodup_named_iff hstore).mpr (toldApart_iff.mp h)) hmem

end Stores

/-! ## The law -/

/-- A snapshot shows every series, so its sum and its count are those of the metrics. -/
structure Lossless (floats : FloatText) (m : InMemoryMetrics) : Prop where
  counters : Shown id m.counters (m.snapshot floats).counters
  durations : Shown (InMemoryMetrics.summarise floats) m.durations (m.snapshot floats).durations
  sum : ((m.snapshot floats).counters.map Prod.snd).sum = (m.counters.map Prod.snd).sum
  count : (m.snapshot floats).durations.length = m.durations.length

variable {floats : FloatText} {maxSeries : Nat} {calls : List MetricsCall}

/-- A snapshot whose series are told apart loses nothing. -/
theorem lossless_of_toldApart {m : InMemoryMetrics} (hcounters : (PyDict.keys m.counters).Nodup)
    (hdurations : (PyDict.keys m.durations).Nodup) (h : ToldApart m.counters)
    (h' : ToldApart m.durations) : Lossless floats m where
  counters := shown_of_toldApart hcounters h
  durations := shown_of_toldApart hdurations h'
  sum := by
    have hsorted : (sorted m.counters).Perm m.counters := List.perm_insertionSort _ _
    rw [InMemoryMetrics.snapshot, rendered_of_toldApart hcounters h, named, List.map_map]
    exact (hsorted.map _).sum_eq
  count := (length_rendered hdurations).2.mpr (toldApart_iff.mp h')

/-- A snapshot loses no series just where no two of a store are confused. -/
theorem lossless_iff (floats : FloatText) (maxSeries : Nat) (calls : List MetricsCall) :
    Lossless floats (run floats maxSeries calls) ↔
      ToldApart (run floats maxSeries calls).counters ∧
        ToldApart (run floats maxSeries calls).durations := by
  obtain ⟨hcounters, hdurations⟩ := nodup_keys_run floats maxSeries calls
  constructor
  · intro h
    exact ⟨toldApart_of_shown hcounters h.counters, toldApart_of_shown hdurations h.durations⟩
  · rintro ⟨h, h'⟩
    exact lossless_of_toldApart hcounters hdurations h h'

/-- One label that holds a comma. -/
def commaLabel : Labels where
  entries := [(lit "a", .str (lit "1,b=2"))]
  distinct := by decide

/-- Two labels that read alike. -/
def twoLabels : Labels where
  entries := [(lit "a", .str (lit "1")), (lit "b", .str (lit "2"))]
  distinct := by decide

/-- The second counter takes the place of the first. -/
theorem comma_loses_series :
    ¬ Lossless noFloats (run noFloats MAX_SERIES_PER_METRIC
      [.increment (lit "runs") (some commaLabel) 1, .increment (lit "runs") (some twoLabels) 1]) := by
  intro h
  exact absurd h.sum (by decide +kernel)

end NexaAssist.Spec.Snapshots
