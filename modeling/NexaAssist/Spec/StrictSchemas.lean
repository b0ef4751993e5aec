import NexaAssist.Llm.StrictSchema

/-!
# Strict schemas

Which places of a schema document are schemas, and when the document that is sent is strict in
all of them and otherwise what it was.

## Key results

- `strict_iff_declared`: when the document that is sent is strict at every depth
- `agentDecision_not_strict`: the schema of the agent's decisions is not
-/

namespace NexaAssist.Spec.StrictSchemas

open PyJson PyJson.Json StrictSchema

/-! ## Places of a schema document -/

/-- What a place of a schema document holds. -/
inductive Place
  | schema
  /-- A dictionary of schemas. -/
  | named
  /-- A list of schemas. -/
  | listed
  /-- A value, whatever it looks like. -/
  | plain
  deriving DecidableEq, Repr

/-- What stands under a keyword of a schema. -/
def keyword (key : PyStr) : Place :=
  if key ∈ [lit "properties", lit "$defs", lit "definitions", lit "patternProperties",
      lit "dependentSchemas"] then .named
  else if key ∈ [lit "anyOf", lit "allOf", lit "oneOf", lit "prefixItems"] then .listed
  else if key ∈ [lit "items", lit "additionalProperties", lit "unevaluatedProperties",
      lit "unevaluatedItems", lit "propertyNames", lit "contains", lit "contentSchema",
      lit "not", lit "if", lit "then", lit "else"] then .schema
  else .plain

/-- Where schemas stand in a schema document. -/
def places : Grammar Place where
  child
    | .schema, key => keyword key
    | .named, _ => .schema
    | _, _ => .plain
  item
    | .listed => .schema
    | _ => .plain

/-- The dictionaries of a document, each with what its place holds. -/
def nodes (place : Place) (document : Json) : List (Place × PyDict PyStr Json) :=
  dicts places (fun _ _ _ => false) place document

/-- What pydantic's documents are: no key comes twice, the properties of a schema are a
    dictionary, and where schemas have names there are no texts. -/
structure WellFormed (node : Place × PyDict PyStr Json) : Prop where
  distinct : (PyDict.keys node.2).Nodup
  properties : node.1 = .schema → ∀ v, PyDict.get (lit "properties") node.2 = some v →
    ∃ fields, v = .obj fields
  named : node.1 = .named → ∀ key s, PyDict.get key node.2 ≠ some (.str s)

/-- A document that pydantic renders a model as. -/
structure SchemaDocument where
  document : Json
  wellFormed : ∀ node ∈ nodes .schema document, WellFormed node

/-! ## Strictness -/

/-- The names of the properties a node declares. -/
def propertyNames (fields : PyDict PyStr Json) : Option (List Json) :=
  match PyDict.get (lit "properties") fields with
  | none => some []
  | some properties => pyList properties

/-- No other properties are allowed, and exactly those that are declared are required. -/
structure Closed (fields : PyDict PyStr Json) : Prop where
  additional : PyDict.get (lit "additionalProperties") fields = some (.bool false)
  required : ∃ names, propertyNames fields = some names ∧
    PyDict.get (lit "required") fields = some (.arr names)

/-- The two keywords of a schema that is an object. -/
def strictKeyword (place : Place) (fields : PyDict PyStr Json) (key : PyStr) : Bool :=
  place = .schema && isObject fields && overwritten key

/-- Every object is closed, and every other keyword is what it was. -/
structure Strict (before after : Json) : Prop where
  closed : ∀ node ∈ nodes .schema after, node.1 = .schema → isObject node.2 = true →
    Closed node.2
  kept : prune places strictKeyword .schema after = prune places strictKeyword .schema before

/-- The document that is sent is strict. -/
def StrictAtEveryDepth (document : Json) : Prop :=
  ∃ sent, strictJsonSchema document = some sent ∧ Strict document sent

/-! ## When it is -/

/-- An object node that comes to be closed where it should, and is left alone where it should:
    it is closed as it is, or it is a schema that declares properties, or it is no schema and
    has none. -/
def Declared (node : Place × PyDict PyStr Json) : Prop :=
  isObject node.2 = true → Closed node.2 ∨
    (node.1 = .schema ↔ (PyDict.get (lit "properties") node.2).isSome = true)

/-- The dictionaries of a document, but for what lies under a keyword that is stored anew. -/
def lasting (place : Place) (document : Json) : List (Place × PyDict PyStr Json) :=
  dicts places (fun _ fields key => tightens fields && overwritten key) place document

section Nodes

variable {place : Place} {v w : Json} {fields children : PyDict PyStr Json} {xs ys : List Json}

/-! ## Plain values -/

/-- Nothing of a value that is no schema is pruned. -/
theorem prune_plain : prune places strictKeyword .plain v = v := by
  refine prune_eq_self (P := (· = .plain)) ?_ ?_ ?_ rfl
  · rintro _ rfl fields key
    rfl
  · rintro _ rfl key
    rfl
  · rintro _ rfl
    rfl

/-- Every dictionary in a plain value is plain. -/
theorem plain_of_mem {node : Place × PyDict PyStr Json}
    (h : node ∈ dicts places (fun _ _ _ => false) .plain v) : node.1 = .plain := by
  induction v with
  | arr xs ih =>
    obtain ⟨v, hv, hnode⟩ := mem_dicts_arr.mp h
    exact ih v hv hnode
  | obj fields ih =>
    rcases mem_dicts_obj.mp h with rfl | ⟨e, he, -, hnode⟩
    · rfl
    · exact ih e he hnode
  | _ => simp [dicts] at h

/-! ## What is known of a node -/

/-- The node at the top of a well-formed schema is well formed. -/
theorem wellFormed_node (h : ∀ node ∈ nodes place (.obj fields), WellFormed node) :
    WellFormed (place, fields) :=
  h _ (mem_dicts_obj.mpr (.inl rfl))

/-- The nodes below a field of a well-formed schema are well formed. -/
theorem wellFormed_entry (h : ∀ node ∈ nodes place (.obj fields), WellFormed node)
    {e : PyStr × Json} (he : e ∈ fields) :
    ∀ node ∈ nodes (places.child place e.1) e.2, WellFormed node :=
  fun node hnode => h node (mem_dicts_obj.mpr (.inr ⟨e, he, rfl, hnode⟩))

/-- The nodes below an item of a well-formed array are well formed. -/
theorem wellFormed_item (h : ∀ node ∈ nodes place (.arr xs), WellFormed node) {v : Json}
    (hv : v ∈ xs) : ∀ node ∈ nodes (places.item place) v, WellFormed node :=
  fun node hnode => h node (mem_dicts_arr.mpr ⟨v, hv, hnode⟩)

/-- `tightens` asks for an object schema that has `properties`. -/
theorem tightens_iff : tightens fields = true ↔
    isObject fields = true ∧ (PyDict.get (lit "properties") fields).isSome = true := by
  rw [tightens, Bool.and_eq_true]

/-- Where schemas have names there is no object node. -/
theorem isObject_named (h : WellFormed (.named, fields)) : isObject fields = false := by
  rw [Bool.eq_false_iff, ne_eq, isObject_iff]
  exact h.named rfl _ _

/-- What is tightened comes to be closed. -/
theorem closed_close {names : List Json}
    (h : (PyDict.get (lit "properties") children).bind pyList = some names) :
    Closed (close names children) := by
  obtain ⟨properties, hproperties, hnames⟩ := Option.bind_eq_some_iff.mp h
  constructor
  · rw [close, PyDict.get_set_ne (by decide), PyDict.get_set_self]
  · refine ⟨names, ?_, by rw [close, PyDict.get_set_self]⟩
    rw [propertyNames, get_close_of_ne (by decide), hproperties]
    exact hnames

/-- What is closed is left alone. -/
theorem close_of_closed (h : Closed fields) {names : List Json}
    (hnames : (PyDict.get (lit "properties") fields).bind pyList = some names) :
    close names fields = fields := by
  obtain ⟨names', hnames', hrequired⟩ := h.required
  have heq : names' = names := by
    obtain ⟨properties, hproperties, hlist⟩ := Option.bind_eq_some_iff.mp hnames
    rw [propertyNames, hproperties] at hnames'
    exact Option.some.inj (hnames'.symm.trans hlist)
  rw [close, PyDict.set_of_get h.additional, PyDict.set_of_get (heq ▸ hrequired)]

/-- The entries of a closed node are the two that `close` sets and the others of its children. -/
theorem mem_close {names : List Json} {e : PyStr × Json}
    (hdistinct : (PyDict.keys children).Nodup) :
    e ∈ close names children ↔ e = (lit "required", .arr names) ∨
      e = (lit "additionalProperties", .bool false) ∨ e ∈ children ∧ overwritten e.1 = false := by
  rw [close, PyDict.mem_set_iff (PyDict.nodup_keys_set hdistinct), PyDict.mem_set_iff hdistinct]
  simp only [overwritten, Bool.or_eq_false_iff, decide_eq_false_iff_not]
  constructor
  · rintro (h | ⟨h | ⟨h, hadditional⟩, hrequired⟩)
    · exact .inl h
    · exact .inr (.inl h)
    · exact .inr (.inr ⟨h, hadditional, hrequired⟩)
  · rintro (h | h | ⟨h, hadditional, hrequired⟩)
    · exact .inl h
    · exact .inr ⟨.inl h, by rw [h]; decide⟩
    · exact .inr ⟨.inr ⟨h, hadditional⟩, hrequired⟩

/-! ## A document with declared objects -/

/-- What the claim on a value is: it is tightened, closed where it should be, and otherwise
    what it was. -/
def Sent (place : Place) (v w : Json) : Prop :=
  tighten v = some w ∧
    (∀ node ∈ nodes place w, node.1 = .schema → isObject node.2 = true → Closed node.2) ∧
    prune places strictKeyword place w = prune places strictKeyword place v

/-- An array is `Sent` where its items are, one by one. -/
theorem sent_arr (h : List.Forall₂ (Sent (places.item place)) xs ys) :
    Sent place (.arr xs) (.arr ys) := by
  refine ⟨?_, ?_, ?_⟩
  · rw [tighten, tightenItems_eq.mpr (h.imp fun _ _ h => h.1)]
    rfl
  · intro node hnode
    obtain ⟨w, hw, hnode⟩ := mem_dicts_arr.mp hnode
    obtain ⟨v, -, -, hclosed, -⟩ := h.exists_of_mem_right hw
    exact hclosed node hnode
  · rw [prune_arr, prune_arr, h.map_eq fun _ _ h => h.2.2]

/-- An entry and what is sent for it. -/
def SentEntry (place : Place) (kept : PyStr → Bool) (e e' : PyStr × Json) : Prop :=
  e.1 = e'.1 ∧ if kept e.1 then e'.2 = e.2 else Sent (places.child place e.1) e.2 e'.2

/-- A `SentEntry` has become what `strictSchema` makes of it. -/
theorem SentEntry.becomes {kept : PyStr → Bool} {e e' : PyStr × Json}
    (h : SentEntry place kept e e') : Becomes kept e e' := by
  obtain ⟨hkey, hsent⟩ := h
  refine ⟨hkey, ?_⟩
  split
  · rename_i hkept
    rw [if_pos hkept] at hsent
    rw [hsent]
  · rename_i hkept
    rw [if_neg hkept] at hsent
    exact hsent.1

/-- The value of a `SentEntry` that is not kept is `Sent`. -/
theorem SentEntry.sent {kept : PyStr → Bool} {e e' : PyStr × Json}
    (h : SentEntry place kept e e') (hkept : kept e.1 = false) :
    Sent (places.child place e.1) e.2 e'.2 := by
  have hsent := h.2
  rwa [hkept, if_neg Bool.false_ne_true] at hsent

/-- The entries the strict keywords are left out of have the same values pruned. -/
theorem prune_entries {kept : PyStr → Bool}
    (h : List.Forall₂ (SentEntry place kept) fields children) {drop : PyStr → Bool}
    (hdrop : ∀ key, drop key = false → kept key = false) :
    ((children.filter fun e => !drop e.1).map fun e =>
        (e.1, prune places strictKeyword (places.child place e.1) e.2)) =
      (fields.filter fun e => !drop e.1).map fun e =>
        (e.1, prune places strictKeyword (places.child place e.1) e.2) := by
  have hfilter := h.filter (p := fun e => !drop e.1) (q := fun e => !drop e.1)
    fun e e' hentry => by rw [hentry.1]
  refine hfilter.map_eq ?_
  rintro e e' ⟨hentry, hnot⟩
  have hsent := hentry.sent (hdrop _ (by simpa using hnot))
  rw [← hentry.1, hsent.2.2]

/-- What is kept of the entries of a tightened schema is what was kept of those of the schema. -/
theorem prune_schema (hobject : isObject fields = true) :
    prune places strictKeyword .schema (.obj fields) =
      .obj ((fields.filter fun e => !overwritten e.1).map fun e =>
        (e.1, prune places strictKeyword (places.child .schema e.1) e.2)) := by
  have hkeyword : (fun e : PyStr × Json => !strictKeyword .schema fields e.1) =
      fun e => !overwritten e.1 := by
    funext e
    rw [strictKeyword, hobject, decide_eq_true rfl, Bool.true_and, Bool.true_and]
  rw [prune_obj, hkeyword]

/-- A schema that declares properties is `Sent` as a closed node. -/
theorem sent_schema {kept : PyStr → Bool}
    (hkept : kept = fun key => tightens fields && overwritten key)
    (hwf : WellFormed (.schema, fields)) (htightens : tightens fields = true)
    (h : List.Forall₂ (SentEntry .schema kept) fields children) :
    ∃ w, Sent .schema (.obj fields) w := by
  have hbecomes := h.imp fun _ _ h => h.becomes
  have hkeep : ∀ key, overwritten key = false → kept key = false := by
    intro key hkey
    simp only [hkept, hkey, Bool.and_false]
  obtain ⟨hobject, hsome⟩ := tightens_iff.mp htightens
  obtain ⟨properties, hproperties⟩ := Option.isSome_iff_exists.mp hsome
  obtain ⟨declared, rfl⟩ := hwf.properties rfl _ hproperties
  obtain ⟨sent, hsent, hpart⟩ := get_fields hbecomes hproperties
  rw [hkeep _ (by decide), if_neg Bool.false_ne_true] at hpart
  obtain ⟨declared', rfl⟩ := obj_of_tighten hpart
  have hnames : (PyDict.get (lit "properties") children).bind pyList =
      some (declared'.map fun e => .str e.1) := by
    rw [hsent]
    rfl
  have hobject' := (isObject_children hbecomes (hkeep _ (by decide))).trans hobject
  refine ⟨.obj (close _ children), tighten_obj_eq.mpr ⟨children, hkept ▸ hbecomes,
    .inl ⟨htightens, _, hnames, rfl⟩⟩, ?_, ?_⟩
  · intro node hnode hplace hnodeObject
    rcases mem_dicts_obj.mp hnode with rfl | ⟨e, he, -, hnode⟩
    · exact closed_close hnames
    have hdistinct : (PyDict.keys children).Nodup := keys_of_becomes hbecomes ▸ hwf.distinct
    rcases (mem_close hdistinct).mp he with rfl | rfl | ⟨he, hother⟩
    · exact nomatch hplace.symm.trans (plain_of_mem hnode)
    · simp [dicts] at hnode
    · obtain ⟨e₀, -, hentry⟩ := h.exists_of_mem_right he
      rw [← hentry.1] at hother hnode
      exact (hentry.sent (hkeep _ hother)).2.1 node hnode hplace hnodeObject
  · rw [prune_schema hobject, prune_schema (isObject_close.trans hobject'), close,
      PyDict.filter_set (fun key => !overwritten key) (by decide),
      PyDict.filter_set (fun key => !overwritten key) (by decide), prune_entries h hkeep]

/-- A value that is no schema, but looks like a closed one, is `Sent` as it is. -/
theorem sent_looks {kept : PyStr → Bool} (hplace : ∀ key, places.child place key = .plain)
    (hno : place ≠ .schema) (hkept : kept = fun key => tightens fields && overwritten key)
    (htightens : tightens fields = true) (hclosed : Closed fields)
    (h : List.Forall₂ (SentEntry place kept) fields children) :
    Sent place (.obj fields) (.obj fields) := by
  have hbecomes := h.imp fun _ _ h => h.becomes
  have hsame : children = fields := by
    have hmap : children.map id = fields.map id := by
      refine h.map_eq ?_
      rintro ⟨key, v⟩ ⟨key', w⟩ hentry
      obtain ⟨hkey, hsent⟩ := hentry
      obtain rfl : key = key' := hkey
      refine Prod.ext rfl ?_
      split at hsent
      · exact hsent
      · have hpruned := hsent.2.2
        rwa [hplace, prune_plain, prune_plain] at hpruned
    simpa using hmap
  obtain ⟨names, hnames, -⟩ := hclosed.required
  obtain ⟨properties, hproperties⟩ := Option.isSome_iff_exists.mp (tightens_iff.mp htightens).2
  rw [propertyNames, hproperties] at hnames
  have hbind : (PyDict.get (lit "properties") fields).bind pyList = some names := by
    rw [hproperties]
    exact hnames
  refine ⟨tighten_obj_eq.mpr ⟨children, hkept ▸ hbecomes, .inl ⟨htightens, names, ?_, ?_⟩⟩, ?_, rfl⟩
  · rw [hsame]
    exact hbind
  · rw [hsame, close_of_closed hclosed hbind]
  · intro node hnode hschema hobject
    rcases mem_dicts_obj.mp hnode with rfl | ⟨e, -, -, hnode⟩
    · exact absurd hschema hno
    · rw [hplace] at hnode
      exact nomatch hschema.symm.trans (plain_of_mem hnode)

/-- What is closed and declares no properties is so after its entries are looked into. -/
theorem closed_children {kept : PyStr → Bool} (hkept : ∀ key, kept key = false)
    (h : List.Forall₂ (Becomes kept) fields children)
    (hnone : PyDict.get (lit "properties") fields = none) (hclosed : Closed fields) :
    Closed children := by
  have hvalue : ∀ {key v}, PyDict.get key fields = some v →
      PyDict.get key children = tighten v := by
    intro key v hv
    obtain ⟨w, hw, hbecomes⟩ := get_fields h hv
    rw [hkept, if_neg Bool.false_ne_true] at hbecomes
    rw [hw, hbecomes]
  obtain ⟨names, hnames, hrequired⟩ := hclosed.required
  rw [propertyNames, hnone, Option.some.injEq] at hnames
  subst hnames
  constructor
  · rw [hvalue hclosed.additional]
    simp [tighten]
  · refine ⟨[], ?_, ?_⟩
    · have hsome := isSome_children h (lit "properties")
      rw [hnone, Option.isSome_none, Option.isSome_eq_false_iff, Option.isNone_iff_eq_none] at hsome
      rw [propertyNames, hsome]
    · rw [hvalue hrequired]
      rfl

/-- A node that is not tightened is `Sent` with its children, if it is declared. -/
theorem sent_open {kept : PyStr → Bool}
    (hkept : kept = fun key => tightens fields && overwritten key)
    (htightens : tightens fields = false) (hdeclared : Declared (place, fields))
    (h : List.Forall₂ (SentEntry place kept) fields children) :
    Sent place (.obj fields) (.obj children) := by
  have hbecomes := h.imp fun _ _ h => h.becomes
  have hnever : ∀ key, kept key = false := by
    intro key
    simp only [hkept, htightens, Bool.false_and]
  have hobject := isObject_children hbecomes (hnever _)
  refine ⟨tighten_obj_eq.mpr ⟨children, hkept ▸ hbecomes, .inr ⟨htightens, rfl⟩⟩, ?_, ?_⟩
  · intro node hnode hschema hnodeObject
    rcases mem_dicts_obj.mp hnode with rfl | ⟨e, he, -, hnode⟩
    · have hfields : isObject fields = true := hobject ▸ hnodeObject
      have hnone : (PyDict.get (lit "properties") fields).isSome = false := by
        rwa [tightens, hfields, Bool.true_and] at htightens
      rcases hdeclared hfields with hclosed | hiff
      · exact closed_children hnever hbecomes (by simpa using hnone) hclosed
      · exact absurd (hiff.mp hschema) (by simp [hnone])
    · obtain ⟨e₀, -, hentry⟩ := h.exists_of_mem_right he
      rw [← hentry.1] at hnode
      exact (hentry.sent (hnever _)).2.1 node hnode hschema hnodeObject
  · have hsame : strictKeyword place children = strictKeyword place fields := by
      funext key
      rw [strictKeyword, strictKeyword, hobject]
    rw [prune_obj, prune_obj, hsame, prune_entries h fun key _ => hnever key]

/-- A document whose objects are declared is sent strict. -/
theorem sent_of_declared (hwf : ∀ node ∈ nodes place v, WellFormed node)
    (hdeclared : ∀ node ∈ lasting place v, Declared node) : ∃ w, Sent place v w := by
  -- Structural induction on the document
  induction v generalizing place with
  | arr xs ih =>
    obtain ⟨ys, hys⟩ := List.exists_forall₂ (R := Sent (places.item place)) fun v hv =>
      ih v hv (wellFormed_item hwf hv)
        fun node hnode => hdeclared node (mem_dicts_arr.mpr ⟨v, hv, hnode⟩)
    exact ⟨.arr ys, sent_arr hys⟩
  | obj fields ih =>
    have hnode := wellFormed_node hwf
    have hself : Declared (place, fields) := hdeclared _ (mem_dicts_obj.mpr (.inl rfl))
    obtain ⟨kept, hkept⟩ : ∃ kept, kept = fun key => tightens fields && overwritten key := ⟨_, rfl⟩
    -- An entry that is overwritten is sent whatever it holds
    have hentry : ∀ e ∈ fields, ∃ e', SentEntry place kept e e' := by
      intro e he
      cases hkeep : kept e.1 with
      | true => exact ⟨e, rfl, by rw [hkeep, if_pos rfl]⟩
      | false =>
        obtain ⟨w, hw⟩ := ih e he (wellFormed_entry hwf he) fun node hnode =>
          hdeclared node (mem_dicts_obj.mpr (.inr ⟨e, he, by rw [← hkeep, hkept], hnode⟩))
        exact ⟨(e.1, w), rfl, by rw [hkeep, if_neg Bool.false_ne_true]; exact hw⟩
    obtain ⟨children, h⟩ := List.exists_forall₂ hentry
    cases htightens : tightens fields with
    | false => exact ⟨_, sent_open hkept htightens hself h⟩
    | true =>
      obtain ⟨hobject, hsome⟩ := tightens_iff.mp htightens
      -- Outside a schema an object is tightened only where that changes nothing
      have hclosed : place ≠ .schema → Closed fields := by
        intro hno
        rcases hself hobject with hclosed | hiff
        · exact hclosed
        · exact absurd (hiff.mpr hsome) hno
      cases place with
      | schema => exact sent_schema hkept hnode htightens h
      | named => exact absurd hobject (by simp [isObject_named hnode])
      | listed =>
        exact ⟨_, sent_looks (fun _ => rfl) nofun hkept htightens (hclosed nofun) h⟩
      | plain =>
        exact ⟨_, sent_looks (fun _ => rfl) nofun hkept htightens (hclosed nofun) h⟩
  | _ => exact ⟨_, by simp [tighten], by simp [nodes, dicts], rfl⟩

/-! ## A document that is sent strict -/

/-- Where nothing under a place is a schema, nothing of it is pruned. -/
theorem prune_looks (hplace : ∀ key, places.child place key = .plain) (hno : place ≠ .schema) :
    prune places strictKeyword place (.obj fields) = .obj fields := by
  have hfilter : (fields.filter fun e => !strictKeyword place fields e.1) = fields :=
    List.filter_eq_self.mpr fun e _ => by
      rw [strictKeyword, decide_eq_false hno, Bool.false_and, Bool.false_and, Bool.not_false]
  have hmap : (fields.map fun e =>
      (e.1, prune places strictKeyword (places.child place e.1) e.2)) = fields.map id :=
    List.map_congr_left fun e _ => by rw [hplace, prune_plain]; rfl
  rw [prune_obj, hfilter, hmap, List.map_id]

/-- What is closed after its entries are looked into was so before. -/
theorem closed_fields {kept : PyStr → Bool} (hkept : ∀ key, kept key = false)
    (h : List.Forall₂ (Becomes kept) fields children)
    (hnone : PyDict.get (lit "properties") fields = none) (hclosed : Closed children) :
    Closed fields := by
  have hvalue : ∀ {key w}, PyDict.get key children = some w →
      ∃ v, PyDict.get key fields = some v ∧ tighten v = some w := by
    intro key w hw
    obtain ⟨v, hv, hbecomes⟩ := get_children h hw
    rw [hkept, if_neg Bool.false_ne_true] at hbecomes
    exact ⟨v, hv, hbecomes⟩
  have hnames : propertyNames children = some [] := by
    have hsome := isSome_children h (lit "properties")
    rw [hnone, Option.isSome_none, Option.isSome_eq_false_iff, Option.isNone_iff_eq_none] at hsome
    rw [propertyNames, hsome]
  obtain ⟨names, hnames', hrequired⟩ := hclosed.required
  obtain rfl : [] = names := Option.some.inj (hnames.symm.trans hnames')
  obtain ⟨v, hv, htighten⟩ := hvalue hclosed.additional
  obtain ⟨v', hv', htighten'⟩ := hvalue hrequired
  constructor
  · rw [hv, tighten_bool htighten]
  · refine ⟨[], ?_, ?_⟩
    · rw [propertyNames, hnone]
    · rw [hv', tighten_nil htighten']

/-- Entries whose pruned values are kept are `Sent` as those of one document. -/
theorem sent_of_kept {kept : PyStr → Bool} (h : List.Forall₂ (Becomes kept) fields children)
    {drop : PyStr → Bool}
    (hpruned : ((children.filter fun e => !drop e.1).map fun e =>
        (e.1, prune places strictKeyword (places.child place e.1) e.2)) =
      (fields.filter fun e => !drop e.1).map fun e =>
        (e.1, prune places strictKeyword (places.child place e.1) e.2))
    {e : PyStr × Json} (he : e ∈ fields) (hdrop : drop e.1 = false) :
    ∃ e' ∈ children, Becomes kept e e' ∧
      prune places strictKeyword (places.child place e.1) e'.2 =
        prune places strictKeyword (places.child place e.1) e.2 := by
  have hfilter := (h.filter (p := fun e => !drop e.1) (q := fun e => !drop e.1)
    fun e e' hentry => by rw [hentry.1]).and_map_eq hpruned
  have hmem : e ∈ fields.filter fun e => !drop e.1 := by
    rw [List.mem_filter]
    exact ⟨he, by rw [hdrop, Bool.not_false]⟩
  obtain ⟨e', he', ⟨hbecomes, -⟩, heq⟩ := hfilter.exists_of_mem_left hmem
  refine ⟨e', (List.mem_filter.mp he').1, hbecomes, ?_⟩
  have hvalue := congrArg Prod.snd heq
  rw [← hbecomes.1] at hvalue
  exact hvalue

/-- What is sent for an entry that is looked into, but for a strict keyword of a schema that is
    not tightened. -/
theorem sent_entry (hwf : WellFormed (place, fields)) (h : Sent place (.obj fields) w)
    {e : PyStr × Json} (he : e ∈ fields) (hkept : (tightens fields && overwritten e.1) = false)
    (hkeyword : strictKeyword place fields e.1 = false ∨ tightens fields = true) :
    ∃ w', Sent (places.child place e.1) e.2 w' := by
  obtain ⟨htighten, hclosed, hprune⟩ := h
  obtain ⟨children, hbecomes, hcases⟩ := tighten_obj_eq.mp htighten
  -- The entry itself is tightened under its own key
  have hof : ∀ {e' : PyStr × Json},
      Becomes (fun key => tightens fields && overwritten key) e e' → e'.1 = e.1 ∧
        tighten e.2 = some e'.2 := by
    intro e' hentry
    have hvalue : (if tightens fields && overwritten e.1 then some e.2 else tighten e.2) =
        some e'.2 := hentry.2
    rw [hkept, if_neg Bool.false_ne_true] at hvalue
    exact ⟨hentry.1.symm, hvalue⟩
  obtain ⟨htightens, names, hnames, rfl⟩ | ⟨htightens, rfl⟩ := hcases
  · obtain ⟨hobject, -⟩ := tightens_iff.mp htightens
    have hother : overwritten e.1 = false := by rwa [htightens, Bool.true_and] at hkept
    have hdistinct : (PyDict.keys children).Nodup := keys_of_becomes hbecomes ▸ hwf.distinct
    have hsent : ∃ e' ∈ children, Becomes (fun key => tightens fields && overwritten key) e e' ∧
        prune places strictKeyword (places.child place e.1) e'.2 =
          prune places strictKeyword (places.child place e.1) e.2 := by
      -- In a place that only looks like a schema nothing is pruned, so the entry is unchanged
      have hlooks : (∀ key, places.child place key = .plain) → place ≠ .schema →
          ∃ e' ∈ children, Becomes (fun key => tightens fields && overwritten key) e e' ∧
            prune places strictKeyword (places.child place e.1) e'.2 =
              prune places strictKeyword (places.child place e.1) e.2 := by
        intro hplace hno
        rw [prune_looks hplace hno, prune_looks hplace hno, Json.obj.injEq] at hprune
        obtain ⟨e', he', hentry⟩ := hbecomes.exists_of_mem_left he
        obtain ⟨hkey, -⟩ := hof hentry
        have hmem : e' ∈ fields :=
          hprune ▸ (mem_close hdistinct).mpr (.inr (.inr ⟨he', hkey ▸ hother⟩))
        have hget := PyDict.get_of_mem hwf.distinct he
        have hget' := PyDict.get_of_mem hwf.distinct hmem
        rw [hkey, hget, Option.some.injEq] at hget'
        exact ⟨e', he', hentry, by rw [hget']⟩
      cases place with
      | schema =>
        have hobject' : isObject (close names children) = true := by
          rw [isObject_close, isObject_children hbecomes (by rw [htightens]; decide), hobject]
        rw [prune_schema hobject', prune_schema hobject, close,
          PyDict.filter_set (fun key => !overwritten key) (by decide),
          PyDict.filter_set (fun key => !overwritten key) (by decide), Json.obj.injEq] at hprune
        exact sent_of_kept hbecomes hprune he hother
      | named => exact absurd hobject (by simp [isObject_named hwf])
      | listed => exact hlooks (fun _ => rfl) (by decide)
      | plain => exact hlooks (fun _ => rfl) (by decide)
    obtain ⟨e', he', hentry, heq⟩ := hsent
    obtain ⟨hkey, hvalue⟩ := hof hentry
    refine ⟨e'.2, hvalue, fun node hnode => hclosed node ?_, heq⟩
    exact mem_dicts_obj.mpr (.inr ⟨e', (mem_close hdistinct).mpr (.inr (.inr ⟨he', hkey ▸ hother⟩)),
      rfl, hkey ▸ hnode⟩)
  -- An object that is not tightened keeps its entries in their places
  · have hkeyword := hkeyword.resolve_right (by simp [htightens])
    have hsame : strictKeyword place children = strictKeyword place fields := by
      funext key
      rw [strictKeyword, strictKeyword,
        isObject_children hbecomes (by rw [htightens, Bool.false_and])]
    rw [prune_obj, prune_obj, hsame, Json.obj.injEq] at hprune
    obtain ⟨e', he', hentry, heq⟩ := sent_of_kept hbecomes hprune he hkeyword
    obtain ⟨hkey, hvalue⟩ := hof hentry
    refine ⟨e'.2, hvalue, fun node hnode => hclosed node ?_, heq⟩
    exact mem_dicts_obj.mpr (.inr ⟨e', he', rfl, hkey ▸ hnode⟩)

/-- A node that is sent closed or as it is was declared. -/
theorem declared_node (hwf : WellFormed (place, fields)) (h : Sent place (.obj fields) w) :
    Declared (place, fields) := by
  obtain ⟨htighten, hclosed, hprune⟩ := h
  obtain ⟨children, hbecomes, hcases⟩ := tighten_obj_eq.mp htighten
  intro hobject
  obtain ⟨htightens, names, hnames, rfl⟩ | ⟨htightens, rfl⟩ := hcases
  · have hsome := (tightens_iff.mp htightens).2
    have hlooks : (∀ key, places.child place key = .plain) → place ≠ .schema → Closed fields := by
      intro hplace hno
      rw [prune_looks hplace hno, prune_looks hplace hno, Json.obj.injEq] at hprune
      exact hprune ▸ closed_close hnames
    cases place with
    | schema => exact .inr (iff_of_true rfl hsome)
    | named => exact absurd hobject (by simp [isObject_named hwf])
    | listed => exact .inl (hlooks (fun _ => rfl) nofun)
    | plain => exact .inl (hlooks (fun _ => rfl) nofun)
  · have hnone : (PyDict.get (lit "properties") fields).isSome = false := by
      rwa [tightens, hobject, Bool.true_and] at htightens
    have hnever : ∀ key, (tightens fields && overwritten key) = false := by
      intro key
      rw [htightens, Bool.false_and]
    by_cases hschema : place = .schema
    · refine .inl (closed_fields hnever hbecomes (by simpa using hnone) ?_)
      exact hclosed (place, children) (mem_dicts_obj.mpr (.inl rfl)) hschema
        ((isObject_children hbecomes (hnever _)).trans hobject)
    · exact .inr (iff_of_false hschema (by simp [hnone]))

/-- A document that is sent strict has declared objects. -/
theorem declared_of_sent (hwf : ∀ node ∈ nodes place v, WellFormed node) (h : Sent place v w) :
    ∀ node ∈ lasting place v, Declared node := by
  intro node hnode
  -- Structural induction on the document
  induction v generalizing place w with
  | arr xs ih =>
    obtain ⟨htighten, hclosed, hprune⟩ := h
    rw [tighten, Option.map_eq_some_iff] at htighten
    obtain ⟨ys, hys, rfl⟩ := htighten
    rw [prune_arr, prune_arr, Json.arr.injEq] at hprune
    have hitems := (tightenItems_eq.mp hys).and_map_eq hprune
    obtain ⟨v, hv, hnode⟩ := mem_dicts_arr.mp hnode
    obtain ⟨w, hw, htighten, hpruned⟩ := hitems.exists_of_mem_left hv
    refine ih v hv (wellFormed_item hwf hv) ⟨htighten, ?_, hpruned⟩ hnode
    exact fun node hnode => hclosed node (mem_dicts_arr.mpr ⟨w, hw, hnode⟩)
  | obj fields ih =>
    have hself := wellFormed_node hwf
    have hdeclared := declared_node hself h
    rcases mem_dicts_obj.mp hnode with rfl | ⟨e, he, hkept, hnode⟩
    · exact hdeclared
    by_cases hkeyword : strictKeyword place fields e.1 = false ∨ tightens fields = true
    · obtain ⟨w', hw'⟩ := sent_entry hself h he hkept hkeyword
      exact ih e he (wellFormed_entry hwf he) hw' hnode
    · -- A strict keyword of a closed schema holds nothing.
      rw [not_or, Bool.not_eq_false, Bool.not_eq_true] at hkeyword
      obtain ⟨hstrict, htightens⟩ := hkeyword
      simp only [strictKeyword, Bool.and_eq_true, decide_eq_true_eq] at hstrict
      obtain ⟨⟨hschema, hobject⟩, hkey⟩ := hstrict
      have hnone : (PyDict.get (lit "properties") fields).isSome = false := by
        rwa [tightens, hobject, Bool.true_and] at htightens
      have hclosed : Closed fields := by
        rcases hdeclared hobject with hclosed | hiff
        · exact hclosed
        · exact absurd (hiff.mp hschema) (by simp [hnone])
      have hproperties : PyDict.get (lit "properties") fields = none := by simpa using hnone
      obtain ⟨names, hnames, hrequired⟩ := hclosed.required
      rw [propertyNames, hproperties, Option.some.injEq] at hnames
      subst hnames
      have hget := PyDict.get_of_mem hself.distinct he
      simp only [overwritten, Bool.or_eq_true, decide_eq_true_eq] at hkey
      rcases hkey with hkey | hkey
      · rw [hkey, hclosed.additional, Option.some.injEq] at hget
        rw [← hget] at hnode
        simp [dicts] at hnode
      · rw [hkey, hrequired, Option.some.injEq] at hget
        rw [← hget] at hnode
        simp [dicts, itemDicts] at hnode
  | _ => simp [lasting, dicts] at hnode

end Nodes

/-! ## The documents that are sent -/

/-- A schema document is strict at every depth just if every lasting node of it is declared. -/
theorem strict_iff_declared (schema : SchemaDocument) :
    StrictAtEveryDepth schema.document ↔
      ∀ node ∈ lasting .schema schema.document, Declared node := by
  constructor
  · rintro ⟨sent, hsent, hstrict⟩
    exact declared_of_sent schema.wellFormed ⟨hsent, hstrict.closed, hstrict.kept⟩
  · intro hdeclared
    obtain ⟨sent, hsent, hclosed, hkept⟩ := sent_of_declared schema.wellFormed hdeclared
    exact ⟨sent, hsent, hclosed, hkept⟩

/-- A test that a node is well formed. -/
def wellFormedNode (node : Place × PyDict PyStr Json) : Bool :=
  decide (PyDict.keys node.2).Nodup &&
    (node.1 ≠ .schema || match PyDict.get (lit "properties") node.2 with
      | none | some (.obj _) => true
      | _ => false) &&
    (node.1 ≠ .named || node.2.all fun e => match e.2 with
      | .str _ => false
      | _ => true)

/-- A node that passes `wellFormedNode` is well formed. -/
theorem wellFormed_of_test {node : Place × PyDict PyStr Json} (h : wellFormedNode node = true) :
    WellFormed node := by
  simp only [wellFormedNode, Bool.and_eq_true, Bool.or_eq_true, decide_eq_true_eq,
    List.all_eq_true] at h
  obtain ⟨⟨hdistinct, hproperties⟩, hnamed⟩ := h
  refine ⟨hdistinct, ?_, ?_⟩
  · intro hplace v hv
    have hmatch := hproperties.resolve_left (not_not_intro hplace)
    rw [hv] at hmatch
    cases v with
    | obj fields => exact ⟨fields, rfl⟩
    | _ => cases hmatch
  · intro hplace key s hget
    cases hnamed.resolve_left (not_not_intro hplace) _ (PyDict.mem_of_get hget)

/-- A document that passes the test. -/
def SchemaDocument.ofTest (document : Json)
    (h : ((nodes .schema document).all wellFormedNode) = true) : SchemaDocument where
  document := document
  wellFormed node hnode := wellFormed_of_test (List.all_eq_true.mp h node hnode)

/-- The other schemas that are sent are strict. -/
theorem other_schemas_strict :
    StrictAtEveryDepth intentAnalysisSchema ∧ StrictAtEveryDepth groundedModelAnswerSchema := by
  have hstrict : ∀ document, ((nodes .schema document).all wellFormedNode) = true →
      ((lasting .schema document).all fun node => !isObject node.2 ||
        ((node.1 = .schema) == (PyDict.get (lit "properties") node.2).isSome)) = true →
      StrictAtEveryDepth document := by
    intro document hwf hdeclared
    have hnodes : ∀ node ∈ nodes .schema document, WellFormed node :=
      fun node hnode => wellFormed_of_test (List.all_eq_true.mp hwf node hnode)
    have hlasting : ∀ node ∈ lasting .schema document, Declared node := by
      intro node hnode hobject
      have h := List.all_eq_true.mp hdeclared node hnode
      rw [hobject, Bool.not_true, Bool.false_or, beq_iff_eq] at h
      exact .inr (by rw [← h, decide_eq_true_eq])
    obtain ⟨sent, hsent, hclosed, hkept⟩ := sent_of_declared hnodes hlasting
    exact ⟨sent, hsent, hclosed, hkept⟩
  exact ⟨hstrict _ (by decide +kernel) (by decide +kernel),
    hstrict _ (by decide +kernel) (by decide +kernel)⟩

def agentDecision : SchemaDocument :=
  .ofTest agentDecisionSchema (by decide +kernel)

/-- The parameters of a tool are an object without declared properties, which stays open. -/
theorem agentDecision_not_strict : ¬ StrictAtEveryDepth agentDecision.document := by
  rintro ⟨sent, hsent, hstrict⟩
  have hdeclared := declared_of_sent agentDecision.wellFormed ⟨hsent, hstrict.closed, hstrict.kept⟩
  have hget : (lasting .schema agentDecisionSchema)[6]? = some (.schema,
      [(lit "additionalProperties", .bool true), (lit "title", text "Tool Params"),
        (lit "type", text "object")]) := rfl
  rcases hdeclared _ (List.mem_of_getElem? hget) (by decide) with hclosed | hiff
  · exact nomatch hclosed.additional
  · exact absurd (hiff.mp rfl) (by decide)

end NexaAssist.Spec.StrictSchemas
