import Mathlib.Data.List.Dedup
import Mathlib.Data.List.Induction
import Mathlib.Data.List.Perm.Subperm
import NexaAssist.ForStd.PyDict

/-!
# Stores with a cap

A store of series, each of which belongs to a group. A series that is there takes every
entry; a new one is admitted while its group has fewer than so many, and refused from then on.
-/

namespace CappedStore

open PyDict

variable {κ γ α δ : Type} [DecidableEq κ] [DecidableEq γ]

/-- The series of a group. -/
def seriesOf (group : κ → γ) (g : γ) (d : PyDict κ α) : List κ :=
  (keys d).filter fun key => group key = g

/-- Whether a series takes an entry. -/
def admits (group : κ → γ) (cap : Nat) (key : κ) (d : PyDict κ α) : Bool :=
  (get key d).isSome || (seriesOf group (group key) d).length < cap

/-- An entry for a series. -/
def record (group : κ → γ) (cap : Nat) (add : Option α → δ → α) (d : PyDict κ α) (key : κ)
    (x : δ) : PyDict κ α :=
  if admits group cap key d then set key (add (get key d) x) d else d

/-- Entries, one after another. -/
def run (group : κ → γ) (cap : Nat) (add : Option α → δ → α) (entries : List (κ × δ)) :
    PyDict κ α :=
  entries.foldl (fun d entry => record group cap add d entry.1 entry.2) []

/-- What entries of one series come to. -/
def accumulate (add : Option α → δ → α) (value : Option α) (xs : List δ) : Option α :=
  xs.foldl (fun value x => some (add value x)) value

/-- The entries of a series. -/
def entriesOf (key : κ) (entries : List (κ × δ)) : List δ :=
  (entries.filter fun entry => entry.1 = key).map Prod.snd

variable {group : κ → γ} {cap : Nat} {add : Option α → δ → α} {d : PyDict κ α} {key other : κ}
  {x : δ}

/-! ## One entry -/

/-- `get` finds something just if the key is one of the keys. -/
theorem isSome_get_iff : (get key d).isSome = true ↔ key ∈ keys d := by
  rw [← Option.ne_none_iff_isSome, Ne, get_eq_none_iff, not_not]

/-- A key that is admitted is recorded. -/
theorem record_of_admits (h : admits group cap key d = true) :
    record group cap add d key x = set key (add (get key d) x) d := if_pos h

/-- `record` of a key that is not admitted leaves the store. -/
theorem record_of_refused (h : admits group cap key d = false) :
    record group cap add d key x = d := if_neg (by simp [h])

/-- A key that is there is admitted. -/
theorem admits_of_mem (h : key ∈ keys d) : admits group cap key d = true := by
  rw [admits, isSome_get_iff.mpr h, Bool.true_or]

/-- No key is recorded twice. -/
theorem nodup_record (h : (keys d).Nodup) : (keys (record group cap add d key x)).Nodup := by
  unfold record
  split
  · exact nodup_keys_set h
  · exact h

/-- A series that is not there after an entry for it was refused, and nothing has changed. -/
theorem refused_of_notMem (h : key ∉ keys (record group cap add d key x)) :
    record group cap add d key x = d := by
  cases hadmits : admits group cap key d with
  | false => exact record_of_refused hadmits
  | true =>
    rw [record_of_admits hadmits, mem_keys_set] at h
    exact absurd (.inl rfl) h

/-- `admits` in words: the series is there, or its group has fewer than the cap. -/
theorem admits_iff :
    admits group cap key d = true ↔ key ∈ keys d ∨ (seriesOf group (group key) d).length < cap := by
  rw [admits, Bool.or_eq_true, isSome_get_iff, decide_eq_true_iff]

/-- A series is there after an entry for it exactly when it was admitted. -/
theorem mem_record_self_iff :
    key ∈ keys (record group cap add d key x) ↔ admits group cap key d = true := by
  constructor
  · intro h
    by_contra hrefused
    rw [record_of_refused (Bool.eq_false_iff.mpr hrefused)] at h
    exact hrefused (admits_of_mem h)
  · intro h
    rw [record_of_admits h, mem_keys_set]
    exact .inl rfl

/-- `record` of an admitted key adds to what is under it. -/
theorem get_record_of_admits (h : admits group cap key d = true) :
    get key (record group cap add d key x) = some (add (get key d) x) := by
  rw [record_of_admits h, get_set_self]

/-- `record` drops no series. -/
theorem mem_record (h : other ∈ keys d) : other ∈ keys (record group cap add d key x) := by
  unfold record
  split
  · exact (mem_keys_set d _).mpr (.inr h)
  · exact h

/-- `record` adds what it is given to the entry under its key. -/
theorem get_record_self (h : key ∈ keys d) :
    get key (record group cap add d key x) = some (add (get key d) x) := by
  rw [record_of_admits (admits_of_mem h), get_set_self]

/-- `record` leaves the entries under the other keys. -/
theorem get_record_ne (h : other ≠ key) :
    get other (record group cap add d key x) = get other d := by
  unfold record
  split
  · exact get_set_ne h d _
  · rfl

/-- A series that is there after an entry for it, and was not before, holds that entry alone. -/
theorem get_record_new (h : key ∉ keys d) (h' : key ∈ keys (record group cap add d key x)) :
    get key (record group cap add d key x) = some (add none x) := by
  cases hadmits : admits group cap key d with
  | false =>
    rw [record_of_refused hadmits] at h'
    exact absurd h' h
  | true => rw [record_of_admits hadmits, get_set_self, get_eq_none_iff.mpr h]

/-- `record` keeps every group within the cap. -/
theorem length_seriesOf_record (h : ∀ g, (seriesOf group g d).length ≤ cap) (g : γ) :
    (seriesOf group g (record group cap add d key x)).length ≤ cap := by
  cases hadmits : admits group cap key d with
  | false =>
    rw [record_of_refused hadmits]
    exact h g
  | true =>
    rw [record_of_admits hadmits]
    by_cases hmem : key ∈ keys d
    · rw [seriesOf, keys_set_of_mem hmem]
      exact h g
    · rw [seriesOf, set_of_notMem hmem, keys, List.map_append, List.filter_append,
        List.length_append]
      by_cases hg : group key = g
      · -- There was a place left in the group.
        have hplace : (seriesOf group g d).length < cap := by
          rw [admits, get_eq_none_iff.mpr hmem, hg] at hadmits
          exact of_decide_eq_true hadmits
        rw [← keys, List.map_singleton, List.filter_cons_of_pos (by simpa using hg)]
        exact hplace
      · rw [← keys, List.map_singleton, List.filter_cons_of_neg (by simpa using hg)]
        exact h g

/-! ## Any entries -/

variable {entries before after : List (κ × δ)}

/-- A run over two lists of entries goes on where the first has come to. -/
theorem run_append : run group cap add (before ++ after) =
    after.foldl (fun d entry => record group cap add d entry.1 entry.2)
      (run group cap add before) := List.foldl_append

/-- A run over one more entry records it last. -/
theorem run_concat (key : κ) (x : δ) : run group cap add (before ++ [(key, x)]) =
    record group cap add (run group cap add before) key x := by
  rw [run_append]
  rfl

/-- No run has a key twice. -/
theorem nodup_run (entries : List (κ × δ)) : (keys (run group cap add entries)).Nodup := by
  induction entries using List.reverseRecOn with
  | nil => exact List.nodup_nil
  | append_singleton entries entry ih =>
    rw [run_concat]
    exact nodup_record ih

/-- No group ever has more series than the cap. -/
theorem length_seriesOf_run (entries : List (κ × δ)) (g : γ) :
    (seriesOf group g (run group cap add entries)).length ≤ cap := by
  induction entries using List.reverseRecOn generalizing g with
  | nil => exact Nat.zero_le _
  | append_singleton entries entry ih =>
    rw [run_concat]
    exact length_seriesOf_record ih g

/-- A series once admitted stays. -/
theorem mem_run_append (h : key ∈ keys (run group cap add before)) :
    key ∈ keys (run group cap add (before ++ after)) := by
  induction after using List.reverseRecOn with
  | nil => rwa [List.append_nil]
  | append_singleton after entry ih =>
    rw [← List.append_assoc, run_concat]
    exact mem_record ih

/-- One more entry is one of its own key. -/
theorem entriesOf_concat (key : κ) (entry : κ × δ) : entriesOf key (entries ++ [entry]) =
    if entry.1 = key then entriesOf key entries ++ [entry.2] else entriesOf key entries := by
  rw [entriesOf, List.filter_append, List.map_append, ← entriesOf]
  by_cases hkey : entry.1 = key
  · rw [if_pos hkey, List.filter_cons_of_pos (by simpa using hkey)]
    rfl
  · rw [if_neg hkey, List.filter_cons_of_neg (by simpa using hkey)]
    exact List.append_nil _

/-- A series that is there takes every entry of its own, and no other. -/
theorem get_run_append (h : key ∈ keys (run group cap add before)) :
    get key (run group cap add (before ++ after)) =
      accumulate add (get key (run group cap add before)) (entriesOf key after) := by
  induction after using List.reverseRecOn with
  | nil => rw [List.append_nil]; rfl
  | append_singleton after entry ih =>
    rw [← List.append_assoc, run_concat, entriesOf_concat]
    by_cases hkey : entry.1 = key
    · rw [if_pos hkey, hkey, get_record_self (mem_run_append h), ih, accumulate, accumulate,
        List.foldl_append]
      rfl
    · rw [if_neg hkey, get_record_ne (Ne.symm hkey), ih]

/-- A series holds the entries since the one that admitted it. -/
theorem get_run_admitted (hnew : key ∉ keys (run group cap add before))
    (hadmitted : key ∈ keys (run group cap add (before ++ [(key, x)]))) :
    get key (run group cap add (before ++ (key, x) :: after)) =
      accumulate add none (x :: entriesOf key after) := by
  have hfirst : get key (run group cap add (before ++ [(key, x)])) = some (add none x) := by
    rw [run_concat] at hadmitted ⊢
    exact get_record_new hnew hadmitted
  rw [List.append_cons, get_run_append hadmitted, hfirst]
  rfl

/-- A series that is there was admitted by an entry of its own. -/
theorem exists_admission (h : key ∈ keys (run group cap add entries)) :
    ∃ before x after, entries = before ++ (key, x) :: after ∧
      key ∉ keys (run group cap add before) ∧
      key ∈ keys (run group cap add (before ++ [(key, x)])) := by
  induction entries using List.reverseRecOn with
  | nil => exact nomatch h
  | append_singleton entries entry ih =>
    by_cases hmem : key ∈ keys (run group cap add entries)
    · obtain ⟨before, x, after, heq, hnew, hadmitted⟩ := ih hmem
      refine ⟨before, x, after ++ [entry], ?_, hnew, hadmitted⟩
      rw [heq, List.append_assoc, List.cons_append]
    · obtain ⟨k, x⟩ := entry
      have hkey : k = key := by
        by_contra hne
        rw [run_concat] at h
        have hget : get key (record group cap add (run group cap add entries) k x) =
            get key (run group cap add entries) := get_record_ne (Ne.symm hne)
        rw [← isSome_get_iff, hget, isSome_get_iff] at h
        exact hmem h
      subst hkey
      exact ⟨entries, x, [], rfl, hmem, h⟩

/-! ## Few series -/

/-- The series that entries of a group are for. -/
def wanted (group : κ → γ) (g : γ) (entries : List (κ × δ)) : List κ :=
  ((entries.map Prod.fst).filter fun key => group key = g).dedup

/-- There is no series but those that entries were for. -/
theorem mem_of_mem_run (h : key ∈ keys (run group cap add entries)) :
    key ∈ entries.map Prod.fst := by
  obtain ⟨before, x, after, heq, -⟩ := exists_admission h
  rw [heq, List.map_append]
  exact List.mem_append_right _ List.mem_cons_self

/-- A longer run wants no fewer keys. -/
theorem length_wanted_append (g : γ) :
    (wanted group g before).length ≤ (wanted group g (before ++ after)).length := by
  apply ((List.nodup_dedup _).subperm _).length_le
  intro other hother
  simp only [wanted, List.mem_dedup, List.mem_filter, List.map_append, List.mem_append] at *
  exact ⟨.inl hother.1, hother.2⟩

/-- Where the entries of a group are for no more series than the cap, none is refused. -/
theorem mem_run_of_few (hfew : (wanted group (group key) entries).length ≤ cap)
    (h : key ∈ entries.map Prod.fst) : key ∈ keys (run group cap add entries) := by
  -- Induction on the run from its end, since the last entry decides what is refused
  induction entries using List.reverseRecOn with
  | nil => exact absurd h List.not_mem_nil
  | append_singleton entries entry ih =>
    obtain ⟨k, x⟩ := entry
    rw [run_concat]
    have hbefore := Nat.le_trans (length_wanted_append (group key)) hfew
    by_cases hkey : key = k
    · subst hkey
      cases hadmits : admits group cap key (run group cap add entries) with
      | true =>
        rw [record_of_admits hadmits, mem_keys_set]
        exact .inl rfl
      | false =>
        -- The series that are there and this one are more than the cap
        rw [admits, Bool.or_eq_false_iff, decide_eq_false_iff_not, Nat.not_lt] at hadmits
        have hnew : key ∉ keys (run group cap add entries) := by
          rw [← isSome_get_iff, hadmits.1]
          exact Bool.false_ne_true
        have hdistinct : (key :: seriesOf group (group key) (run group cap add entries)).Nodup :=
          List.nodup_cons.mpr ⟨fun hmem => hnew (List.mem_filter.mp hmem).1,
            (nodup_run entries).filter _⟩
        have hwanted : key :: seriesOf group (group key) (run group cap add entries) ⊆
            wanted group (group key) (entries ++ [(key, x)]) := by
          intro other hother
          simp only [wanted, List.mem_dedup, List.mem_filter, List.map_append, List.mem_append]
          obtain rfl | hmem := List.mem_cons.mp hother
          · exact ⟨.inr List.mem_cons_self, decide_eq_true rfl⟩
          · obtain ⟨hkeys, hgroup⟩ := List.mem_filter.mp hmem
            exact ⟨.inl (mem_of_mem_run hkeys), hgroup⟩
        have hlength := (hdistinct.subperm hwanted).length_le
        rw [List.length_cons] at hlength
        omega
    -- An entry of another key takes nothing away
    · rw [List.map_append, List.mem_append] at h
      obtain hold | hlast := h
      · exact mem_record (ih hbefore hold)
      · exact absurd (List.mem_singleton.mp hlast) hkey

/-- Where a group wants no more series than the cap, a series of it holds every entry for it. -/
theorem get_run_of_few (hfew : (wanted group (group key) entries).length ≤ cap) :
    get key (run group cap add entries) = accumulate add none (entriesOf key entries) := by
  induction entries using List.reverseRecOn with
  | nil => rfl
  | append_singleton entries entry ih =>
    obtain ⟨k, x⟩ := entry
    have hbefore := ih (Nat.le_trans (length_wanted_append (group key)) hfew)
    rw [run_concat, entriesOf_concat]
    by_cases hkey : k = key
    · subst hkey
      have hthere : k ∈ keys (record group cap add (run group cap add entries) k x) := by
        rw [← run_concat]
        exact mem_run_of_few hfew (by simp)
      have hgrown : accumulate add none (entriesOf k entries ++ [x]) =
          some (add (get k (run group cap add entries)) x) := by
        rw [hbefore, accumulate, List.foldl_append]
        rfl
      rw [if_pos rfl, hgrown]
      by_cases hmem : k ∈ keys (run group cap add entries)
      · exact get_record_self hmem
      · rw [get_record_new hmem hthere, get_eq_none_iff.mpr hmem]
    · rw [if_neg hkey, get_record_ne (Ne.symm hkey)]
      exact hbefore

end CappedStore
