import Mathlib.Data.List.Perm.Subperm
import NexaAssist.ForStd.List
import NexaAssist.ForStd.PyJson

/-!
# Which values survive a JSON round trip

`encode_restores` says when an encoder writes a value so that `json.loads` gives
it back: the value is made of lists and of dictionaries with distinct `str` keys
(`shaped`), and every string and float in it is one the encoder restores
(`leavesAll`). `leavesAll_of_pyEq` is the converse for the leaves, and
`shaped_of_dumps` for the shape: a value that merely compares equal to its own
round trip through `json.dumps` has that shape already.
-/

namespace PyJson

/-! ## Shapes and leaves -/

/-- A `str` key. -/
def PyKey.isStr : PyKey → Bool
  | .str _ => true
  | _ => false

mutual

/-- Only lists, dictionaries with distinct `str` keys, and JSON's own scalars. -/
def shaped : PyValue → Bool
  | .list xs => shapedList xs
  | .tuple _ => false
  | .dict es => es.all (·.1.isStr) && decide (es.map Prod.fst).Nodup && shapedEntries es
  | .object _ => false
  | _ => true

def shapedList : List PyValue → Bool
  | [] => true
  | v :: vs => shaped v && shapedList vs

def shapedEntries : List (PyKey × PyValue) → Bool
  | [] => true
  | (_, v) :: es => shaped v && shapedEntries es

end

/-- `p` of a `str` key, and nothing of any other. -/
def PyKey.text (p : PyStr → Bool) : PyKey → Bool
  | .str s => p s
  | _ => true

mutual

/-- `p` of every string of a value, its keys included, and `q` of every float. -/
def leavesAll (p : PyStr → Bool) (q : PyFloat → Bool) : PyValue → Bool
  | .float f => q f
  | .str s => p s
  | .list xs => leavesAllList p q xs
  | .tuple xs => leavesAllList p q xs
  | .dict es => leavesAllEntries p q es
  | _ => true

def leavesAllList (p : PyStr → Bool) (q : PyFloat → Bool) : List PyValue → Bool
  | [] => true
  | v :: vs => leavesAll p q v && leavesAllList p q vs

def leavesAllEntries (p : PyStr → Bool) (q : PyFloat → Bool) : List (PyKey × PyValue) → Bool
  | [] => true
  | (k, v) :: es => k.text p && leavesAll p q v && leavesAllEntries p q es

end

/-- A list is shaped just if its values are. -/
theorem shapedList_iff (xs : List PyValue) :
    shapedList xs = true ↔ ∀ v ∈ xs, shaped v = true := by
  induction xs with
  | nil => simp [shapedList]
  | cons v vs ih => simp [shapedList, ih]

/-- Entries are shaped just if each of their values is. -/
theorem shapedEntries_iff (es : List (PyKey × PyValue)) :
    shapedEntries es = true ↔ ∀ e ∈ es, shaped e.2 = true := by
  induction es with
  | nil => simp [shapedEntries]
  | cons e es ih => obtain ⟨k, v⟩ := e; simp only [shapedEntries, Bool.and_eq_true, ih, List.forall_mem_cons]

/-- All leaves of a list are those of its values. -/
theorem leavesAllList_iff (p : PyStr → Bool) (q : PyFloat → Bool) (xs : List PyValue) :
    leavesAllList p q xs = true ↔ ∀ v ∈ xs, leavesAll p q v = true := by
  induction xs with
  | nil => simp [leavesAllList]
  | cons v vs ih => simp [leavesAllList, ih]

/-- The leaves of entries are those of their keys and of their values. -/
theorem leavesAllEntries_iff (p : PyStr → Bool) (q : PyFloat → Bool)
    (es : List (PyKey × PyValue)) :
    leavesAllEntries p q es = true ↔
      ∀ e ∈ es, e.1.text p = true ∧ leavesAll p q e.2 = true := by
  induction es with
  | nil => simp [leavesAllEntries]
  | cons e es ih =>
    obtain ⟨k, v⟩ := e
    simp only [leavesAllEntries, Bool.and_eq_true, ih, List.forall_mem_cons]

/-! ## Encoded lists, element by element -/

/-- A list is encoded value by value. -/
theorem encodeList_ok (E : Encoder) (xs : List PyValue) (ds : List JsonDoc) :
    encodeList E xs = .ok ds ↔ List.Forall₂ (fun v d => encode E v = .ok d) xs ds := by
  induction xs generalizing ds with
  | nil => cases ds <;> simp [encodeList]
  | cons v vs ih =>
    simp only [encodeList]
    cases hv : encode E v with
    | error e => simp [List.forall₂_cons_left_iff, hv]
    | ok d =>
      cases hvs : encodeList E vs with
      | error e =>
        simp only [List.forall₂_cons_left_iff, hv, ← ih, hvs]
        simp
      | ok ds' =>
        simp only [Except.ok.injEq, List.forall₂_cons_left_iff, hv, ← ih, hvs]
        constructor
        · rintro rfl; exact ⟨d, ds', rfl, rfl, rfl⟩
        · rintro ⟨d', ds'', rfl, rfl, rfl⟩; rfl

/-- `encodeEntries` encodes each key and each value. -/
theorem encodeEntries_ok (E : Encoder) (es : List (PyKey × PyValue))
    (fs : List (List StrItem × JsonDoc)) :
    encodeEntries E es = .ok fs ↔
      List.Forall₂ (fun e f => encodeKey E e.1 = .ok f.1 ∧ encode E e.2 = .ok f.2) es fs := by
  induction es generalizing fs with
  | nil => cases fs <;> simp [encodeEntries]
  | cons e es ih =>
    obtain ⟨k, v⟩ := e
    simp only [encodeEntries]
    cases hk : encodeKey E k with
    | error e => simp [List.forall₂_cons_left_iff, hk]
    | ok key =>
      cases hv : encode E v with
      | error e => simp [List.forall₂_cons_left_iff, hv]
      | ok d =>
        cases hes : encodeEntries E es with
        | error e =>
          simp only [List.forall₂_cons_left_iff, hk, hv, ← ih, hes]
          simp
        | ok fs' =>
          simp only [Except.ok.injEq, List.forall₂_cons_left_iff, hk, hv, ← ih, hes]
          constructor
          · rintro rfl; exact ⟨(key, d), fs', ⟨rfl, rfl⟩, rfl, rfl⟩
          · rintro ⟨⟨key', d'⟩, fs'', ⟨rfl, rfl⟩, rfl, rfl⟩; rfl

/-- A list is read value by value. -/
theorem loadsList_eq_map (ds : List JsonDoc) : loadsList ds = ds.map loads := by
  induction ds with
  | nil => rfl
  | cons d ds ih => simp [loadsList, ih]

/-- Fields are read one by one. -/
theorem loadsFields_eq_map (fs : List (List StrItem × JsonDoc)) :
    loadsFields fs = fs.map fun f => (.str (loadsStr f.1), loads f.2) := by
  induction fs with
  | nil => rfl
  | cons f fs ih => obtain ⟨k, d⟩ := f; simp [loadsFields, ih]

/-! ## Dictionaries built from pairs -/

/-- A key that is not there yet is added at the end. -/
theorem dictInsert_of_not_mem (es : List (PyKey × PyValue)) (k : PyKey) (v : PyValue)
    (h : k ∉ es.map Prod.fst) : dictInsert es k v = es ++ [(k, v)] := by
  induction es with
  | nil => rfl
  | cons e es ih =>
    obtain ⟨k', v'⟩ := e
    simp only [List.map_cons, List.mem_cons, not_or] at h
    simp only [dictInsert, if_neg (Ne.symm h.1), ih h.2, List.cons_append]

/-- Storing under a key that is there changes no key. -/
theorem dictInsert_keys_of_mem (es : List (PyKey × PyValue)) (k : PyKey) (v : PyValue)
    (h : k ∈ es.map Prod.fst) : (dictInsert es k v).map Prod.fst = es.map Prod.fst := by
  induction es with
  | nil => simp at h
  | cons e es ih =>
    obtain ⟨k', v'⟩ := e
    by_cases hk : k' = k
    · simp [dictInsert, hk]
    · simp only [List.map_cons, List.mem_cons] at h
      have hmem : k ∈ es.map Prod.fst := h.resolve_left fun heq => hk heq.symm
      simp [dictInsert, hk, ih hmem]

/-- A dictionary built from pairs with distinct keys is those pairs. -/
private theorem foldl_dictInsert_of_nodup (pairs es : List (PyKey × PyValue))
    (h : ((es ++ pairs).map Prod.fst).Nodup) :
    pairs.foldl (fun es p => dictInsert es p.1 p.2) es = es ++ pairs := by
  induction pairs generalizing es with
  | nil => simp
  | cons p pairs ih =>
    have hnot : p.1 ∉ es.map Prod.fst := by
      simp only [List.map_append, List.map_cons, List.nodup_append] at h
      intro hmem
      exact h.2.2 p.1 hmem p.1 (by simp) rfl
    rw [List.foldl_cons, dictInsert_of_not_mem es p.1 p.2 hnot, ih]
    · simp
    · simpa using h

/-- `dictOf` keeps pairs whose keys are apart. -/
theorem dictOf_of_nodup (pairs : List (PyKey × PyValue)) (h : (pairs.map Prod.fst).Nodup) :
    dictOf pairs = pairs :=
  foldl_dictInsert_of_nodup pairs [] h

/-- Whatever the pairs, a dictionary's keys are distinct and come from the pairs. -/
private theorem foldl_dictInsert_keys (pairs es : List (PyKey × PyValue))
    (h : (es.map Prod.fst).Nodup) :
    ((pairs.foldl (fun es p => dictInsert es p.1 p.2) es).map Prod.fst).Nodup ∧
    ∀ k ∈ (pairs.foldl (fun es p => dictInsert es p.1 p.2) es).map Prod.fst,
      k ∈ es.map Prod.fst ∨ k ∈ pairs.map Prod.fst := by
  induction pairs generalizing es with
  | nil => exact ⟨h, fun k hk => .inl hk⟩
  | cons p pairs ih =>
    rw [List.foldl_cons]
    by_cases hmem : p.1 ∈ es.map Prod.fst
    -- A key that is there already changes no key
    · have hkeys := dictInsert_keys_of_mem es p.1 p.2 hmem
      obtain ⟨hnodup, hfrom⟩ := ih (dictInsert es p.1 p.2) (hkeys ▸ h)
      refine ⟨hnodup, fun k hk => ?_⟩
      rcases hfrom k hk with hk | hk
      · exact .inl (hkeys ▸ hk)
      · exact .inr (by simp only [List.map_cons, List.mem_cons]; exact .inr hk)
    -- A new key goes to the end
    · have heq := dictInsert_of_not_mem es p.1 p.2 hmem
      have hnd : ((dictInsert es p.1 p.2).map Prod.fst).Nodup := by
        rw [heq, List.map_append, List.nodup_append]
        refine ⟨h, by simp, fun a ha b hb => ?_⟩
        simp only [List.map_cons, List.map_nil, List.mem_singleton] at hb
        rintro rfl
        exact hmem (hb ▸ ha)
      obtain ⟨hnodup, hfrom⟩ := ih (dictInsert es p.1 p.2) hnd
      refine ⟨hnodup, fun k hk => ?_⟩
      rcases hfrom k hk with hk | hk
      · rw [heq, List.map_append, List.mem_append] at hk
        rcases hk with hk | hk
        · exact .inl hk
        · exact .inr (by simp at hk; simp [hk])
      · exact .inr (by simp only [List.map_cons, List.mem_cons]; exact .inr hk)

/-- `dictOf` never has a key twice, and none that it was not given. -/
theorem dictOf_keys (pairs : List (PyKey × PyValue)) :
    ((dictOf pairs).map Prod.fst).Nodup ∧
    ∀ k ∈ (dictOf pairs).map Prod.fst, k ∈ pairs.map Prod.fst := by
  obtain ⟨hnodup, hfrom⟩ := foldl_dictInsert_keys pairs [] (by simp)
  exact ⟨hnodup, fun k hk => (hfrom k hk).resolve_left (by simp)⟩

/-- `dictInsert` adds one entry. -/
theorem mem_dictInsert {es : List (PyKey × PyValue)} {k : PyKey} {v : PyValue}
    {e : PyKey × PyValue} (he : e ∈ dictInsert es k v) : e ∈ es ∨ e = (k, v) := by
  induction es with
  | nil => exact .inr (List.mem_singleton.mp he)
  | cons e' es ih =>
    obtain ⟨k', v'⟩ := e'
    by_cases hk : k' = k
    · simp only [dictInsert, if_pos hk, List.mem_cons] at he ⊢
      rcases he with rfl | he
      · exact .inr (by rw [hk])
      · exact .inl (.inr he)
    · simp only [dictInsert, if_neg hk, List.mem_cons] at he ⊢
      rcases he with rfl | he
      · exact .inl (.inl rfl)
      · exact (ih he).imp_left .inr

/-- An entry of a dictionary is one of the pairs. -/
theorem mem_of_mem_dictOf {pairs : List (PyKey × PyValue)} {e : PyKey × PyValue}
    (he : e ∈ dictOf pairs) : e ∈ pairs := by
  have hfold : ∀ (pairs es : List (PyKey × PyValue)),
      e ∈ pairs.foldl (fun es p => dictInsert es p.1 p.2) es → e ∈ es ∨ e ∈ pairs := by
    intro pairs
    induction pairs with
    | nil => exact fun es he => .inl he
    | cons p pairs ih =>
      intro es he
      rcases ih _ he with he | he
      · rcases mem_dictInsert he with he | rfl
        · exact .inl he
        · exact .inr List.mem_cons_self
      · exact .inr (List.mem_cons_of_mem p he)
  exact (hfold pairs [] he).resolve_left List.not_mem_nil

/-- What `dictLookup` finds is under one of the keys. -/
theorem mem_keys_of_dictLookup (es : List (PyKey × PyValue)) (k : PyKey) (v : PyValue)
    (h : dictLookup es k = some v) : k ∈ es.map Prod.fst := by
  induction es with
  | nil => simp [dictLookup] at h
  | cons e es ih =>
    obtain ⟨k', v'⟩ := e
    by_cases hk : k' = k
    · simp [hk]
    · simp only [dictLookup, if_neg hk] at h
      simp only [List.map_cons, List.mem_cons]
      exact .inr (ih h)

/-- `dictLookup` finds every entry, if no key is there twice. -/
theorem dictLookup_of_mem (es : List (PyKey × PyValue)) (h : (es.map Prod.fst).Nodup)
    (e : PyKey × PyValue) (he : e ∈ es) : dictLookup es e.1 = some e.2 := by
  induction es with
  | nil => simp at he
  | cons e' es ih =>
    obtain ⟨k', v'⟩ := e'
    simp only [List.map_cons, List.nodup_cons] at h
    rcases List.mem_cons.mp he with rfl | hmem
    · simp [dictLookup]
    · have hne : k' ≠ e.1 := by
        rintro rfl
        exact h.1 (List.mem_map_of_mem hmem)
      simp only [dictLookup, if_neg hne]
      exact ih h.2 hmem

/-! ## What an encoder restores -/

/-- A list of values that can be restored can be. -/
private theorem encodeList_restores (E : Encoder) (xs : List PyValue)
    (h : ∀ v ∈ xs, ∃ d, encode E v = .ok d ∧ loads d = v) :
    ∃ ds, encodeList E xs = .ok ds ∧ loadsList ds = xs := by
  induction xs with
  | nil => exact ⟨[], rfl, rfl⟩
  | cons v vs ih =>
    obtain ⟨d, hd, hv⟩ := h v (by simp)
    obtain ⟨ds, hds, hvs⟩ := ih fun w hw => h w (by simp [hw])
    exact ⟨d :: ds, by simp [encodeList, hd, hds], by simp [loadsList, hv, hvs]⟩

/-- Entries whose keys and values can be restored are restored together. -/
private theorem encodeEntries_restores (E : Encoder) (es : List (PyKey × PyValue))
    (h : ∀ e ∈ es, (∃ items, encodeKey E e.1 = .ok items ∧ PyKey.str (loadsStr items) = e.1) ∧
      ∃ d, encode E e.2 = .ok d ∧ loads d = e.2) :
    ∃ fs, encodeEntries E es = .ok fs ∧ loadsFields fs = es := by
  induction es with
  | nil => exact ⟨[], rfl, rfl⟩
  | cons e es ih =>
    obtain ⟨k, v⟩ := e
    obtain ⟨⟨items, hitems, hk⟩, d, hd, hv⟩ := h (k, v) (by simp)
    obtain ⟨fs, hfs, hes⟩ := ih fun e' he' => h e' (by simp [he'])
    refine ⟨(items, d) :: fs, ?_, ?_⟩
    · dsimp only at hitems hd
      simp [encodeEntries, hitems, hd, hfs]
    · dsimp only at hk hv
      simp [loadsFields, hk, hv, hes]

/-- A value of JSON's own shape, whose strings and floats the encoder restores,
    is restored. -/
theorem encode_restores (E : Encoder) (p : PyStr → Bool) (q : PyFloat → Bool)
    (hstr : ∀ s, p s = true → ∃ items, E.str s = .ok items ∧ loadsStr items = s)
    (hkey : ∀ s, p s = true → loadsStr (E.key s) = s)
    (hfloat : ∀ f, q f = true → loads (E.float f) = .float f)
    (v : PyValue) (hshape : shaped v = true) (hleaves : leavesAll p q v = true) :
    ∃ d, encode E v = .ok d ∧ loads d = v := by
  induction v with
  | none => exact ⟨.null, rfl, rfl⟩
  | bool b => exact ⟨.bool b, rfl, rfl⟩
  | int i => exact ⟨.int i, rfl, rfl⟩
  | float f => exact ⟨E.float f, rfl, hfloat f hleaves⟩
  | str s =>
    obtain ⟨items, hitems, hs⟩ := hstr s hleaves
    exact ⟨.str items, by simp [encode, hitems, Except.map], by simp [loads, hs]⟩
  | list xs ih =>
    simp only [shaped, shapedList_iff] at hshape
    simp only [leavesAll, leavesAllList_iff] at hleaves
    obtain ⟨ds, hds, hxs⟩ := encodeList_restores E xs fun v hv =>
      ih v hv (hshape v hv) (hleaves v hv)
    exact ⟨.array ds, by simp [encode, hds, Except.map], by simp [loads, hxs]⟩
  -- A tuple is not of JSON's own shape
  | tuple xs ih => simp [shaped] at hshape
  | dict es ih =>
    simp only [shaped, Bool.and_eq_true, decide_eq_true_eq, List.all_eq_true,
      shapedEntries_iff] at hshape
    obtain ⟨⟨hkeys, hnodup⟩, hvals⟩ := hshape
    simp only [leavesAll, leavesAllEntries_iff] at hleaves
    -- Only keys that are strings are of JSON's own shape
    obtain ⟨fs, hfs, hes⟩ := encodeEntries_restores E es fun e he => by
      obtain ⟨k, v⟩ := e
      refine ⟨?_, ih _ he (hvals _ he) (hleaves _ he).2⟩
      cases k with
      | str s => exact ⟨E.key s, rfl, by rw [hkey s (hleaves _ he).1]⟩
      | num f text => exact absurd (hkeys _ he) (by simp [PyKey.isStr])
      | none => exact absurd (hkeys _ he) (by simp [PyKey.isStr])
      | other o => exact absurd (hkeys _ he) (by simp [PyKey.isStr])
    exact ⟨.object fs, by simp [encode, hfs, Except.map],
      by simp [loads, hes, dictOf_of_nodup es hnodup]⟩
  | object name => simp [shaped] at hshape

/-! ## What an encoder wrote, read back -/

/-- Every key is written as some text. -/
theorem encodeKey_ok {E : Encoder} {k : PyKey} {items : List StrItem}
    (h : encodeKey E k = .ok items) : ∃ s, E.key s = items := by
  cases k with
  | str s => exact ⟨s, Except.ok.inj h⟩
  | num value text => exact ⟨text, Except.ok.inj h⟩
  | none => exact ⟨E.noneKey, Except.ok.inj h⟩
  | other o => exact nomatch h

/-- What is read of an encoded list has the shape and the leaves of its values. -/
private theorem loads_encodeList {E : Encoder} {p : PyStr → Bool} {q : PyFloat → Bool}
    {xs : List PyValue} {ds : List JsonDoc} (h : encodeList E xs = .ok ds)
    (hall : ∀ v ∈ xs, ∀ d, encode E v = .ok d →
      shaped (loads d) = true ∧ leavesAll p q (loads d) = true) :
    shaped (.list (loadsList ds)) = true ∧ leavesAll p q (.list (loadsList ds)) = true := by
  have hread : ∀ w ∈ loadsList ds, shaped w = true ∧ leavesAll p q w = true := by
    rw [loadsList_eq_map]
    intro w hw
    obtain ⟨d, hd, rfl⟩ := List.mem_map.mp hw
    obtain ⟨v, hv, hvd⟩ := ((encodeList_ok E xs ds).mp h).exists_of_mem_right hd
    exact hall v hv d hvd
  rw [shaped, shapedList_iff, leavesAll, leavesAllList_iff]
  exact ⟨fun w hw => (hread w hw).1, fun w hw => (hread w hw).2⟩

/-- What an encoder wrote is read back in JSON's own shape, and what holds of the strings and
    floats it writes holds of those in it. -/
theorem loads_encode (E : Encoder) (p : PyStr → Bool) (q : PyFloat → Bool)
    (hstr : ∀ s items, E.str s = .ok items → p (loadsStr items) = true)
    (hkey : ∀ s, p (loadsStr (E.key s)) = true)
    (hfloat : ∀ f, shaped (loads (E.float f)) = true ∧ leavesAll p q (loads (E.float f)) = true)
    (v : PyValue) (d : JsonDoc) (h : encode E v = .ok d) :
    shaped (loads d) = true ∧ leavesAll p q (loads d) = true := by
  induction v generalizing d with
  | none =>
    obtain rfl := Except.ok.inj h
    exact ⟨rfl, rfl⟩
  | bool b =>
    obtain rfl := Except.ok.inj h
    exact ⟨rfl, rfl⟩
  | int i =>
    obtain rfl := Except.ok.inj h
    exact ⟨rfl, rfl⟩
  | float f =>
    obtain rfl := Except.ok.inj h
    exact hfloat f
  | str s =>
    cases hs : E.str s with
    | error e => simp [encode, hs, Except.map] at h
    | ok items =>
      simp only [encode, hs, Except.map, Except.ok.injEq] at h
      subst h
      exact ⟨rfl, hstr s items hs⟩
  -- A tuple is written like a list, and so read back as one
  | list xs ih | tuple xs ih =>
    cases hxs : encodeList E xs with
    | error e => simp [encode, hxs, Except.map] at h
    | ok ds =>
      simp only [encode, hxs, Except.map, Except.ok.injEq] at h
      subst h
      exact loads_encodeList hxs ih
  | dict es ih =>
    cases hes : encodeEntries E es with
    | error e => simp [encode, hes, Except.map] at h
    | ok fs =>
      simp only [encode, hes, Except.map, Except.ok.injEq] at h
      subst h
      -- An entry of what is read back is one of the pairs that were written, by the last of each
      -- key
      have hread : ∀ e ∈ dictOf (loadsFields fs),
          (∃ s, e.1 = .str s ∧ p s = true) ∧ shaped e.2 = true ∧ leavesAll p q e.2 = true := by
        intro e he
        have hpair := mem_of_mem_dictOf he
        rw [loadsFields_eq_map] at hpair
        obtain ⟨f, hf, rfl⟩ := List.mem_map.mp hpair
        obtain ⟨g, hg, hwritten, hval⟩ :=
          ((encodeEntries_ok E es fs).mp hes).exists_of_mem_right hf
        obtain ⟨s, hs⟩ := encodeKey_ok hwritten
        exact ⟨⟨_, rfl, hs ▸ hkey s⟩, ih g hg f.2 hval⟩
      constructor
      · rw [loads, shaped, Bool.and_eq_true, Bool.and_eq_true, shapedEntries_iff,
          decide_eq_true_eq, List.all_eq_true]
        refine ⟨⟨fun e he => ?_, (dictOf_keys _).1⟩, fun e he => (hread e he).2.1⟩
        obtain ⟨⟨s, hs, -⟩, -⟩ := hread e he
        rw [hs]; rfl
      · rw [loads, leavesAll, leavesAllEntries_iff]
        intro e he
        obtain ⟨⟨s, hs, hps⟩, -, hleaves⟩ := hread e he
        exact ⟨by rw [hs]; exact hps, hleaves⟩
  | object name => exact nomatch h

/-! ## What a round trip that compares equal says of the value -/

/-- Lists compare element by element. -/
theorem pyEqList_iff (xs ys : List PyValue) :
    pyEqList xs ys = true ↔ List.Forall₂ (fun x y => pyEq x y = true) xs ys := by
  induction xs generalizing ys with
  | nil => cases ys <;> simp [pyEqList]
  | cons x xs ih =>
    cases ys with
    | nil => simp [pyEqList]
    | cons y ys => simp [pyEqList, ih]

/-- `pyEqEntries` holds just if each value has an equal one under its key. -/
theorem pyEqEntries_iff (es fs : List (PyKey × PyValue)) :
    pyEqEntries es fs = true ↔
      ∀ e ∈ es, ∃ w, dictLookup fs e.1 = some w ∧ pyEq e.2 w = true := by
  induction es with
  | nil => simp [pyEqEntries]
  | cons e es ih =>
    obtain ⟨k, v⟩ := e
    simp only [pyEqEntries, Bool.and_eq_true, ih, List.forall_mem_cons]
    cases dictLookup fs k <;> simp

/-- The values of a list that equals its own round trip equal theirs. -/
private theorem pyEq_of_list (E : Encoder) (xs : List PyValue) (ds : List JsonDoc)
    (henc : encodeList E xs = .ok ds) (heq : pyEqList (loadsList ds) xs = true) :
    ∀ v ∈ xs, ∃ d, encode E v = .ok d ∧ pyEq (loads d) v = true := by
  induction xs generalizing ds with
  | nil => simp
  | cons v vs ih =>
    rw [encodeList_ok] at henc
    cases henc with
    | cons hd hds =>
      rename_i d ds'
      simp only [loadsList, pyEqList, Bool.and_eq_true] at heq
      intro w hw
      rcases List.mem_cons.mp hw with rfl | hw
      · exact ⟨d, hd, heq.1⟩
      · exact ih ds' ((encodeList_ok E vs ds').mpr hds) heq.2 w hw

/-- When its keys are restored, the dictionary read back has an entry for each
    entry written, in order. -/
private theorem loadsFields_keys (E : Encoder) (es : List (PyKey × PyValue))
    (fs : List (List StrItem × JsonDoc)) (henc : encodeEntries E es = .ok fs)
    (hkeys : ∀ e ∈ es, ∀ items, encodeKey E e.1 = .ok items →
      PyKey.str (loadsStr items) = e.1) :
    (loadsFields fs).map Prod.fst = es.map Prod.fst := by
  induction es generalizing fs with
  | nil =>
    rw [encodeEntries_ok] at henc
    cases henc
    rfl
  | cons e es ih =>
    rw [encodeEntries_ok] at henc
    cases henc with
    | cons he hes =>
      rename_i f fs'
      obtain ⟨items, d⟩ := f
      have htail := ih fs' ((encodeEntries_ok E es fs').mpr hes)
        fun e' he' => hkeys e' (by simp [he'])
      have hhead : PyKey.str (loadsStr items) = e.1 := hkeys e (by simp) items he.1
      rw [loadsFields, List.map_cons, List.map_cons, htail, hhead]

/-- The values of a dictionary that equals its own round trip equal theirs. -/
private theorem pyEq_of_dict (E : Encoder) (es : List (PyKey × PyValue))
    (fs : List (List StrItem × JsonDoc)) (henc : encodeEntries E es = .ok fs)
    (hnodup : (es.map Prod.fst).Nodup)
    (hkeys : ∀ e ∈ es, ∀ items, encodeKey E e.1 = .ok items →
      PyKey.str (loadsStr items) = e.1)
    (heq : pyEqEntries (dictOf (loadsFields fs)) es = true) :
    ∀ e ∈ es, ∃ d, encode E e.2 = .ok d ∧ pyEq (loads d) e.2 = true := by
  have hfields := loadsFields_keys E es fs henc hkeys
  rw [dictOf_of_nodup _ (hfields ▸ hnodup), pyEqEntries_iff] at heq
  intro e he
  rw [encodeEntries_ok] at henc
  obtain ⟨f, hf, hkey, hval⟩ := henc.exists_of_mem_left he
  refine ⟨f.2, hval, ?_⟩
  obtain ⟨w, hlookup, hw⟩ := heq (.str (loadsStr f.1), loads f.2)
    (by rw [loadsFields_eq_map]; exact List.mem_map_of_mem hf)
  rw [hkeys e he f.1 hkey, dictLookup_of_mem es hnodup e he] at hlookup
  exact (Option.some.inj hlookup) ▸ hw

/-- A dictionary that equals the one read back has, up to order, its keys. -/
private theorem keys_perm_of_pyEq (es fields : List (PyKey × PyValue))
    (hlen : (dictOf fields).length = es.length)
    (heq : pyEqEntries (dictOf fields) es = true) :
    ((dictOf fields).map Prod.fst).Perm (es.map Prod.fst) := by
  rw [pyEqEntries_iff] at heq
  have hsub : (dictOf fields).map Prod.fst ⊆ es.map Prod.fst := by
    intro k hk
    obtain ⟨e, he, rfl⟩ := List.mem_map.mp hk
    obtain ⟨w, hw, -⟩ := heq e he
    exact mem_keys_of_dictLookup es e.1 w hw
  have hsubperm := List.subperm_of_subset (dictOf_keys fields).1 hsub
  exact hsubperm.perm_of_length_le (by simp [hlen])

/-- A value that compares equal to its own round trip has JSON's own shape, and
    the round trip restored its strings and floats. The encoder's keys must be
    stable: what is read back is written and read back unchanged. -/
theorem shaped_of_pyEq (E : Encoder) (p : PyStr → Bool) (q : PyFloat → Bool)
    (hstable : ∀ s, loadsStr (E.key (loadsStr (E.key s))) = loadsStr (E.key s))
    (hstr : ∀ s items, E.str s = .ok items → loadsStr items = s → p s = true)
    (hkey : ∀ s, loadsStr (E.key s) = s → p s = true)
    (hfloat : ∀ f, pyEq (loads (E.float f)) (.float f) = true → q f = true)
    (v : PyValue) (d : JsonDoc) (henc : encode E v = .ok d)
    (heq : pyEq (loads d) v = true) : shaped v = true ∧ leavesAll p q v = true := by
  induction v generalizing d with
  | none => exact ⟨rfl, rfl⟩
  | bool b => exact ⟨rfl, rfl⟩
  | int i => exact ⟨rfl, rfl⟩
  | float f =>
    simp only [encode, Except.ok.injEq] at henc
    exact ⟨rfl, hfloat f (henc ▸ heq)⟩
  -- A string is equal to what is read back only if it is that string
  | str s =>
    cases hs : E.str s with
    | error e => simp [encode, hs, Except.map] at henc
    | ok items =>
      simp only [encode, hs, Except.map, Except.ok.injEq] at henc
      subst henc
      simp only [loads, pyEq, beq_iff_eq] at heq
      exact ⟨rfl, hstr s items hs heq⟩
  | list xs ih =>
    cases hxs : encodeList E xs with
    | error e => simp [encode, hxs, Except.map] at henc
    | ok ds =>
      simp only [encode, hxs, Except.map, Except.ok.injEq] at henc
      subst henc
      simp only [loads, pyEq] at heq
      have hall := pyEq_of_list E xs ds hxs heq
      constructor
      · rw [shaped, shapedList_iff]
        intro w hw
        obtain ⟨d, hd, hw'⟩ := hall w hw
        exact (ih w hw d hd hw').1
      · rw [leavesAll, leavesAllList_iff]
        intro w hw
        obtain ⟨d, hd, hw'⟩ := hall w hw
        exact (ih w hw d hd hw').2
  | tuple xs ih =>
    -- A tuple comes back as a list, which equals no tuple
    cases hxs : encodeList E xs with
    | error e => simp [encode, hxs, Except.map] at henc
    | ok ds =>
      simp only [encode, hxs, Except.map, Except.ok.injEq] at henc
      subst henc
      simp [loads, pyEq] at heq
  | dict es ih =>
    cases hes : encodeEntries E es with
    | error e => simp [encode, hes, Except.map] at henc
    | ok fs =>
      simp only [encode, hes, Except.map, Except.ok.injEq] at henc
      subst henc
      simp only [loads, pyEq, Bool.and_eq_true, beq_iff_eq] at heq
      obtain ⟨hlen, hentries⟩ := heq
      have hperm := keys_perm_of_pyEq es _ hlen hentries
      have hnodup : (es.map Prod.fst).Nodup := hperm.nodup_iff.mp (dictOf_keys _).1
      have hforall := (encodeEntries_ok E es fs).mp hes
      -- Counting makes every key of the dictionary one that was read back.
      have hread : ∀ e ∈ es, ∃ f ∈ fs, e.1 = PyKey.str (loadsStr f.1) := by
        intro e he
        have hmem := (dictOf_keys _).2 e.1 (hperm.mem_iff.mpr (List.mem_map_of_mem he))
        rw [loadsFields_eq_map, List.map_map, List.mem_map] at hmem
        obtain ⟨f, hf, hkey⟩ := hmem
        exact ⟨f, hf, hkey.symm⟩
      -- What a key was read back as is written and read back unchanged
      have hkeys : ∀ e ∈ es, ∀ items, encodeKey E e.1 = .ok items →
          PyKey.str (loadsStr items) = e.1 := by
        intro e he items hitems
        obtain ⟨f, hf, hname⟩ := hread e he
        obtain ⟨e', -, htext, -⟩ := hforall.exists_of_mem_right hf
        rw [hname] at hitems ⊢
        -- Whatever the key was, its text came out of the encoder
        obtain ⟨t, ht⟩ := encodeKey_ok htext
        rw [← Except.ok.inj hitems, ← ht, hstable t]
      have hall := pyEq_of_dict E es fs hes hnodup hkeys hentries
      constructor
      · rw [shaped, Bool.and_eq_true, Bool.and_eq_true, shapedEntries_iff,
          decide_eq_true_eq, List.all_eq_true]
        refine ⟨⟨fun e he => ?_, hnodup⟩, fun e he => ?_⟩
        · obtain ⟨f, -, hname⟩ := hread e he
          rw [hname]; rfl
        · obtain ⟨d, hd, he'⟩ := hall e he
          exact (ih e he d hd he').1
      · rw [leavesAll, leavesAllEntries_iff]
        intro e he
        obtain ⟨d, hd, he'⟩ := hall e he
        refine ⟨?_, (ih e he d hd he').2⟩
        obtain ⟨f, -, hname⟩ := hread e he
        obtain ⟨g, hg, htext, -⟩ := hforall.exists_of_mem_left he
        have hrestored := hkeys e he g.1 htext
        rw [hname] at htext hrestored ⊢
        rw [← Except.ok.inj htext] at hrestored
        exact hkey _ (PyKey.str.inj hrestored)
  | object name => simp [encode] at henc

/-! ## The two encoders -/

/-- The floats `json` restores as the object they were. -/
def jsonFloat : PyFloat → Bool
  | .nan object => object == 0
  | _ => true

def isFinite : PyFloat → Bool
  | .finite _ => true
  | _ => false

/-- Every float is finite and no string holds a surrogate. -/
def portable (v : PyValue) : Bool := leavesAll wellFormed isFinite v

/-- A value equal to what `json` reads back of it is that very value. -/
theorem shaped_of_dumps (v : PyValue) (d : JsonDoc) (henc : dumps v = .ok d)
    (heq : pyEq (loads d) v = true) :
    shaped v = true ∧ leavesAll pairFree jsonFloat v = true := by
  have hkey : ∀ s, loadsStr (dumpsStr s) = s → pairFree s = true := by
    intro s hread
    rw [← hread, loadsStr_dumpsStr]
    exact pairFree_norm s
  refine shaped_of_pyEq jsonEncoder pairFree jsonFloat ?_ ?_ hkey ?_ v d henc heq
  · intro s
    show loadsStr (dumpsStr (loadsStr (dumpsStr s))) = loadsStr (dumpsStr s)
    rw [loadsStr_dumpsStr, loadsStr_dumpsStr]
    exact norm_of_pairFree _ (pairFree_norm s)
  · intro s items hs hread
    simp only [jsonEncoder, Except.ok.injEq] at hs
    exact hkey s (hs ▸ hread)
  · intro f hf
    cases f with
    | finite q => rfl
    | inf neg => rfl
    | nan o =>
      simp only [jsonEncoder, loads, pyEq, numberOf, beq_iff_eq, Option.some.injEq,
        PyFloat.nan.injEq] at hf
      simp [jsonFloat, ← hf]

/-- pydantic writes a text as it is, if it can be encoded. -/
private theorem modelDumpStr_ok (s : PyStr) (items : List StrItem)
    (h : pydanticEncoder.str s = .ok items) : wellFormed s = true ∧ items = s.map .raw := by
  simp only [pydanticEncoder] at h
  split at h
  · rename_i hwf
    exact ⟨hwf, (Except.ok.inj h).symm⟩
  · exact nomatch h

/-- A key that pydantic wrote is read back with its surrogates replaced. -/
theorem loadsStr_pydanticKey (s : PyStr) : loadsStr (pydanticEncoder.key s) = lossy s :=
  loadsStr_map_raw (lossy s)

/-- A portable value of JSON's own shape is what `json.loads` makes of what
    pydantic wrote for it. -/
theorem modelDump_restores (v : PyValue) (hshape : shaped v = true)
    (hportable : portable v = true) : ∃ d, modelDump v = .ok d ∧ loads d = v := by
  refine encode_restores pydanticEncoder wellFormed isFinite ?_ ?_ ?_ v hshape hportable
  · intro s hs
    exact ⟨s.map .raw, by simp [pydanticEncoder, hs], loadsStr_map_raw s⟩
  · intro s hs
    rw [loadsStr_pydanticKey, lossy_of_wellFormed hs]
  · intro f hf
    cases f with
    | finite q => rfl
    | inf neg => simp [isFinite] at hf
    | nan o => simp [isFinite] at hf

/-- Whatever pydantic wrote, what is read of it can be written again. -/
theorem loads_modelDump {v : PyValue} {d : JsonDoc} (h : modelDump v = .ok d) :
    shaped (loads d) = true ∧ portable (loads d) = true := by
  refine loads_encode pydanticEncoder wellFormed isFinite ?_ ?_ ?_ v d h
  · intro s items hs
    obtain ⟨hwf, rfl⟩ := modelDumpStr_ok s items hs
    rw [loadsStr_map_raw, hwf]
  · intro s
    rw [loadsStr_pydanticKey]
    exact wellFormed_lossy s
  · intro f
    cases f <;> exact ⟨rfl, rfl⟩

/-- Only portable values equal what is read back of pydantic's output. -/
theorem portable_of_modelDump (v : PyValue) (d : JsonDoc) (henc : modelDump v = .ok d)
    (heq : pyEq (loads d) v = true) : portable v = true := by
  refine (shaped_of_pyEq pydanticEncoder wellFormed isFinite ?_ ?_ ?_ ?_ v d henc heq).2
  · intro s
    rw [loadsStr_pydanticKey, loadsStr_pydanticKey]
    exact lossy_of_wellFormed (wellFormed_lossy s)
  · intro s items hs _
    exact (modelDumpStr_ok s items hs).1
  · intro s hread
    rw [← hread, loadsStr_pydanticKey]
    exact wellFormed_lossy s
  · intro f hf
    cases f with
    | finite q => rfl
    | inf neg => simp [pydanticEncoder, loads, pyEq] at hf
    | nan o => simp [pydanticEncoder, loads, pyEq] at hf

/-- Equality is reflexive on a value of JSON's own shape. -/
theorem pyEq_self (v : PyValue) (hshape : shaped v = true) : pyEq v v = true := by
  induction v with
  | none => rfl
  | bool b => simp [pyEq]
  | int i => simp [pyEq]
  | float f => simp [pyEq]
  | str s => simp [pyEq]
  | list xs ih =>
    rw [shaped, shapedList_iff] at hshape
    rw [pyEq, pyEqList_iff, List.forall₂_same]
    exact fun v hv => ih v hv (hshape v hv)
  | tuple xs ih => simp [shaped] at hshape
  | dict es ih =>
    simp only [shaped, Bool.and_eq_true, decide_eq_true_eq, shapedEntries_iff] at hshape
    rw [pyEq, Bool.and_eq_true, pyEqEntries_iff]
    refine ⟨by simp, fun e he => ⟨e.2, dictLookup_of_mem es hshape.1.2 e he, ?_⟩⟩
    exact ih e he (hshape.2 e he)
  | object name => simp [shaped] at hshape

end PyJson
