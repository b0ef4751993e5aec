import Mathlib.Data.List.Induction
import Mathlib.Data.List.Nodup

/-!
# Dictionaries of Python

A `dict` as the list of its entries, in the order in which its keys came.
-/

/-- A `dict`. -/
abbrev PyDict (κ α : Type) := List (κ × α)

namespace PyDict

variable {κ α : Type} [DecidableEq κ]

/-- `d.get(key)`. -/
def get (key : κ) : PyDict κ α → Option α
  | [] => none
  | (k, value) :: rest => if k = key then some value else get key rest

/-- `d[key] = value`. -/
def set (key : κ) (value : α) : PyDict κ α → PyDict κ α
  | [] => [(key, value)]
  | (k, old) :: rest => if k = key then (key, value) :: rest else (k, old) :: set key value rest

/-- `d.update(entries)`. -/
def update (entries d : PyDict κ α) : PyDict κ α :=
  entries.foldl (fun d entry => set entry.1 entry.2 d) d

/-- `dict(entries)`. -/
def ofEntries (entries : List (κ × α)) : PyDict κ α := update entries []

/-- What `d.pop(key, None)` leaves. -/
def erase (key : κ) (d : PyDict κ α) : PyDict κ α := d.filter fun entry => entry.1 ≠ key

/-- `d.keys()`. -/
def keys (d : PyDict κ α) : List κ := d.map Prod.fst

/-- `get` finds what `set` has set. -/
@[simp] theorem get_set_self (d : PyDict κ α) (key : κ) (value : α) :
    get key (set key value d) = some value := by
  induction d with
  | nil => simp [set, get]
  | cons entry rest ih =>
    obtain ⟨k, old⟩ := entry
    by_cases hk : k = key
    · simp [set, get, hk]
    · simpa [set, get, hk] using ih

/-- `set` leaves what is under the other keys. -/
theorem get_set_ne {key other : κ} (h : other ≠ key) (d : PyDict κ α) (value : α) :
    get other (set key value d) = get other d := by
  induction d with
  | nil => simp [set, get, h.symm]
  | cons entry rest ih =>
    obtain ⟨k, old⟩ := entry
    by_cases hk : k = key
    · subst hk
      simp [set, get, h.symm]
    · simp only [set, if_neg hk, get, ih]

/-- `set` adds its own key. -/
theorem mem_keys_set {key other : κ} (d : PyDict κ α) (value : α) :
    other ∈ keys (set key value d) ↔ other = key ∨ other ∈ keys d := by
  induction d with
  | nil => simp [set, keys]
  | cons entry rest ih =>
    obtain ⟨k, old⟩ := entry
    by_cases hk : k = key
    · subst hk
      simp [set, keys]
    · simp only [set, if_neg hk, keys, List.map_cons, List.mem_cons] at ih ⊢
      rw [ih]
      exact or_left_comm

/-- `get` finds nothing just if the key is not there. -/
theorem get_eq_none_iff {key : κ} {d : PyDict κ α} : get key d = none ↔ key ∉ keys d := by
  induction d with
  | nil => simp [get, keys]
  | cons entry rest ih =>
    obtain ⟨k, value⟩ := entry
    by_cases hk : k = key
    · simp [get, keys, hk]
    · simp only [get, if_neg hk, ih, keys, List.map_cons, List.mem_cons, not_or]
      exact ⟨fun h => ⟨Ne.symm hk, h⟩, fun h => h.2⟩

/-- What `get` finds is an entry. -/
theorem mem_of_get {key : κ} {value : α} {d : PyDict κ α} (h : get key d = some value) :
    (key, value) ∈ d := by
  induction d with
  | nil => exact nomatch h
  | cons entry rest ih =>
    obtain ⟨k, old⟩ := entry
    by_cases hk : k = key
    · rw [get, if_pos hk, Option.some.injEq] at h
      rw [hk, h]
      exact List.mem_cons_self
    · rw [get, if_neg hk] at h
      exact List.mem_cons_of_mem _ (ih h)

/-- `get` finds every entry, if no key is there twice. -/
theorem get_of_mem {entry : κ × α} {d : PyDict κ α} (hd : (keys d).Nodup) (h : entry ∈ d) :
    get entry.1 d = some entry.2 := by
  induction d with
  | nil => exact nomatch h
  | cons first rest ih =>
    obtain ⟨k, old⟩ := first
    obtain ⟨hnot, hrest⟩ := List.nodup_cons.mp hd
    rcases List.mem_cons.mp h with rfl | hmem
    · rw [get, if_pos rfl]
    · have hne : k ≠ entry.1 := by
        intro heq
        have hkey : entry.1 ∈ keys rest := List.mem_map_of_mem hmem
        exact hnot (heq ▸ hkey)
      rw [get, if_neg hne, ih hrest hmem]

/-- The values under the keys that a filter keeps, in the order of the keys. -/
theorem map_snd_filter {d : PyDict κ α} (hd : (keys d).Nodup) (p : κ → Bool) (default : α) :
    (d.filter fun entry => p entry.1).map Prod.snd =
      ((keys d).filter p).map fun key => (get key d).getD default := by
  rw [keys, List.filter_map, List.map_map]
  apply List.map_congr_left
  intro entry hentry
  have hget := get_of_mem hd (List.mem_filter.mp hentry).1
  rw [Function.comp_apply, hget, Option.getD_some]

/-- `set` of the value that a key has changes nothing. -/
theorem set_of_get {key : κ} {value : α} {d : PyDict κ α} (h : get key d = some value) :
    set key value d = d := by
  induction d with
  | nil => exact nomatch h
  | cons entry rest ih =>
    obtain ⟨k, old⟩ := entry
    by_cases hk : k = key
    · rw [get, if_pos hk, Option.some.injEq] at h
      rw [set, if_pos hk, hk, h]
    · rw [get, if_neg hk] at h
      rw [set, if_neg hk, ih h]

/-- A key that is stored already keeps its place. -/
theorem keys_set_of_mem {key : κ} {d : PyDict κ α} (h : key ∈ keys d) (value : α) :
    keys (set key value d) = keys d := by
  induction d with
  | nil => exact nomatch h
  | cons entry rest ih =>
    obtain ⟨k, old⟩ := entry
    by_cases hk : k = key
    · rw [set, if_pos hk, ← hk]
      rfl
    · have hrest : key ∈ keys rest := (List.mem_cons.mp h).resolve_left (Ne.symm hk)
      rw [set, if_neg hk, keys, List.map_cons, ← keys, ih hrest]
      rfl

/-- `set` of a new key puts it last. -/
theorem set_of_notMem {key : κ} {d : PyDict κ α} (h : key ∉ keys d) (value : α) :
    set key value d = d ++ [(key, value)] := by
  induction d with
  | nil => rfl
  | cons entry rest ih =>
    obtain ⟨k, old⟩ := entry
    obtain ⟨hk, hrest⟩ := not_or.mp (mt List.mem_cons.mpr h)
    rw [set, if_neg (Ne.symm hk), ih hrest, List.cons_append]

/-- `set` keeps the keys apart. -/
theorem nodup_keys_set {key : κ} {value : α} {d : PyDict κ α} (hd : (keys d).Nodup) :
    (keys (set key value d)).Nodup := by
  induction d with
  | nil => simp [set, keys]
  | cons first rest ih =>
    obtain ⟨k, old⟩ := first
    obtain ⟨hnot, hrest⟩ := List.nodup_cons.mp hd
    by_cases hk : k = key
    · rw [set, if_pos hk, ← hk]
      exact List.nodup_cons.mpr ⟨hnot, hrest⟩
    · rw [set, if_neg hk]
      refine List.nodup_cons.mpr ⟨?_, ih hrest⟩
      rw [← keys, mem_keys_set]
      exact fun h => h.elim hk hnot

/-- `update` with new, distinct keys puts the entries behind the others. -/
theorem update_of_new {entries d : PyDict κ α} (hdistinct : (keys entries).Nodup)
    (hnew : ∀ key ∈ keys entries, key ∉ keys d) : update entries d = d ++ entries := by
  induction entries generalizing d with
  | nil => exact (List.append_nil _).symm
  | cons entry entries ih =>
    obtain ⟨hnot, hrest⟩ := List.nodup_cons.mp hdistinct
    have hset := set_of_notMem (hnew _ List.mem_cons_self) entry.2
    rw [update, List.foldl_cons, hset, ← update, ih hrest, List.append_assoc]
    · rfl
    · intro key hkey hmem
      rw [keys, List.map_append, List.mem_append] at hmem
      rcases hmem with hmem | hmem
      · exact hnew key (List.mem_cons_of_mem _ hkey) hmem
      · rw [List.mem_singleton.mp hmem] at hkey
        exact hnot hkey

/-- `ofEntries` of entries whose keys are apart is those entries. -/
theorem ofEntries_eq {entries : List (κ × α)} (hdistinct : (keys entries).Nodup) :
    ofEntries entries = entries := by
  rw [ofEntries, update_of_new hdistinct (fun _ _ => List.not_mem_nil), List.nil_append]

/-- One more entry is set. -/
theorem ofEntries_concat (entries : List (κ × α)) (entry : κ × α) :
    ofEntries (entries ++ [entry]) = set entry.1 entry.2 (ofEntries entries) := by
  rw [ofEntries, update, List.foldl_append]
  rfl

/-- The keys are those of the entries. -/
theorem mem_keys_ofEntries {entries : List (κ × α)} {key : κ} :
    key ∈ keys (ofEntries entries) ↔ key ∈ keys entries := by
  induction entries using List.reverseRecOn with
  | nil => rfl
  | append_singleton entries entry ih =>
    rw [ofEntries_concat, mem_keys_set, ih, keys, keys, List.map_append, List.mem_append,
      List.map_singleton, List.mem_singleton, or_comm]

/-- A dictionary has at most as many entries as it is made of, and as many only where their
    keys stand once each. -/
theorem length_ofEntries (entries : List (κ × α)) : (ofEntries entries).length ≤ entries.length ∧
    ((ofEntries entries).length = entries.length ↔ (keys entries).Nodup) := by
  induction entries using List.reverseRecOn with
  | nil => exact ⟨Nat.le_refl _, fun _ => List.nodup_nil, fun _ => rfl⟩
  | append_singleton entries entry ih =>
    obtain ⟨hle, hiff⟩ := ih
    have hkeys : (keys (entries ++ [entry])).Nodup ↔
        (keys entries).Nodup ∧ entry.1 ∉ keys entries := by
      rw [keys, List.map_append, List.map_singleton, ← List.concat_eq_append, List.nodup_concat]
      exact And.comm
    rw [hkeys, ofEntries_concat, List.length_append, List.length_singleton]
    by_cases hmem : entry.1 ∈ keys (ofEntries entries)
    · -- The entry replaces one.
      have hlength : (set entry.1 entry.2 (ofEntries entries)).length =
          (ofEntries entries).length := by
        have h := congrArg List.length (keys_set_of_mem hmem entry.2)
        rwa [keys, keys, List.length_map, List.length_map] at h
      rw [hlength]
      refine ⟨Nat.le_succ_of_le hle, fun h => ?_, fun h => ?_⟩
      · omega
      · exact absurd (mem_keys_ofEntries.mp hmem) h.2
    · rw [set_of_notMem hmem, List.length_append, List.length_singleton, Nat.add_right_cancel_iff,
        hiff]
      refine ⟨Nat.succ_le_succ hle, fun h => ⟨h, fun h' => ?_⟩, And.left⟩
      exact hmem (mem_keys_ofEntries.mpr h')

/-- `set` changes no entry that a filter keeps, if the filter does not keep its key. -/
theorem filter_set (keep : κ → Bool) {key : κ} (hkey : keep key = false) {value : α}
    {d : PyDict κ α} :
    (set key value d).filter (fun e => keep e.1) = d.filter fun e => keep e.1 := by
  induction d with
  | nil => simp [set, hkey]
  | cons first rest ih =>
    obtain ⟨k, old⟩ := first
    by_cases hk : k = key
    · rw [set, if_pos hk, List.filter_cons_of_neg (by simp [hkey]),
        List.filter_cons_of_neg (by simp [hk, hkey])]
    · rw [set, if_neg hk, List.filter_cons, List.filter_cons, ih]

/-- The entries after `set` are the new one and those under the other keys. -/
theorem mem_set_iff {key : κ} {value : α} {d : PyDict κ α} (hd : (keys d).Nodup)
    {entry : κ × α} :
    entry ∈ set key value d ↔ entry = (key, value) ∨ entry ∈ d ∧ entry.1 ≠ key := by
  induction d with
  | nil => simp [set]
  | cons first rest ih =>
    obtain ⟨k, old⟩ := first
    obtain ⟨hnot, hrest⟩ := List.nodup_cons.mp hd
    by_cases hk : k = key
    -- The entry of the key is replaced in its place, and no later one has the key
    · subst hk
      rw [set, if_pos rfl, List.mem_cons, List.mem_cons]
      have hne : entry ∈ rest → entry.1 ≠ k := by
        intro hmem heq
        have hkey : entry.1 ∈ keys rest := List.mem_map_of_mem hmem
        exact hnot (heq ▸ hkey)
      constructor
      · rintro (rfl | hmem)
        · exact .inl rfl
        · exact .inr ⟨.inr hmem, hne hmem⟩
      · rintro (rfl | ⟨rfl | hmem, hk⟩)
        · exact .inl rfl
        · exact absurd rfl hk
        · exact .inr hmem
    -- Another entry stays where it is
    · rw [set, if_neg hk, List.mem_cons, ih hrest, List.mem_cons]
      constructor
      · rintro (rfl | rfl | ⟨hmem, hne⟩)
        · exact .inr ⟨.inl rfl, hk⟩
        · exact .inl rfl
        · exact .inr ⟨.inr hmem, hne⟩
      · rintro (rfl | ⟨rfl | hmem, hne⟩)
        · exact .inr (.inl rfl)
        · exact .inl rfl
        · exact .inr (.inr ⟨hmem, hne⟩)

/-- `erase` takes one key away. -/
theorem keys_erase (key : κ) (d : PyDict κ α) :
    keys (erase key d) = (keys d).filter fun other => other ≠ key := by
  rw [keys, erase, keys, List.filter_map]
  rfl

end PyDict
