import Mathlib.Data.List.Forall2
import NexaAssist.ForStd.JsonTree
import NexaAssist.ForStd.List
import NexaAssist.Schemas.Types

/-!
# Strict schemas

The schema document of a model, and what the provider makes of it before it is sent: every
object it finds is closed, and all of its properties are required.
-/

namespace NexaAssist

open PyJson

namespace StrictSchema

/-- `list(value)`. Nothing is a `TypeError`. -/
def pyList : Json → Option (List Json)
  | .arr xs => some xs
  | .obj fields => some (fields.map fun e => .str e.1)
  | .str s => some (s.map fun c => .str [c])
  | _ => none

/-- `node.get("type") == "object"`. -/
def isObject (fields : PyDict PyStr Json) : Bool :=
  match PyDict.get (lit "type") fields with
  | some (.str s) => s = lit "object"
  | _ => false

/-- The node is tightened. -/
def tightens (fields : PyDict PyStr Json) : Bool :=
  isObject fields && (PyDict.get (lit "properties") fields).isSome

/-- The keys that are stored anew. -/
def overwritten (key : PyStr) : Bool :=
  key = lit "additionalProperties" || key = lit "required"

mutual

/-- `_tighten`. What is stored anew is not looked into before: it is gone by the time the
    values are. Nothing in it is an object of its own, for the items of `required` are names,
    or are the items of `properties` themselves. -/
def tighten : Json → Option Json
  | .arr xs => (tightenItems xs).map .arr
  | .obj fields =>
    match tightenFields (fun key => tightens fields && overwritten key) fields with
    | none => none
    | some children =>
      if tightens fields then
        match (PyDict.get (lit "properties") children).bind pyList with
        | none => none
        | some names =>
          some (.obj (PyDict.set (lit "required") (.arr names)
            (PyDict.set (lit "additionalProperties") (.bool false) children)))
      else some (.obj children)
  | v => some v

def tightenItems : List Json → Option (List Json)
  | [] => some []
  | v :: vs =>
    match tighten v, tightenItems vs with
    | some w, some ws => some (w :: ws)
    | _, _ => none

def tightenFields (kept : PyStr → Bool) : List (PyStr × Json) → Option (List (PyStr × Json))
  | [] => some []
  | (key, v) :: fields =>
    match (if kept key then some v else tighten v), tightenFields kept fields with
    | some w, some rest => some ((key, w) :: rest)
    | _, _ => none

end

/-- `strict_json_schema` of the document pydantic renders a model as. -/
def strictJsonSchema (document : Json) : Option Json := tighten document

/-! ## The schemas that are sent -/

/-- A dictionary with the given keys. -/
def object (fields : List (String × Json)) : Json :=
  .obj (fields.map fun field => (lit field.1, field.2))

def text (s : String) : Json := .str (lit s)

/-- `IntentAnalysis.model_json_schema()` -/
def intentAnalysisSchema : Json :=
  object [
    ("$defs", object [
      ("IntentCategory", object [
        ("description", text ("The closed set of intents a customer message can be classified " ++
          "into.\n\nA closed set is the point: downstream routing becomes a lookup rather " ++
          "than\nfuzzy string matching. ``OTHER`` is mandatory -- without an escape hatch " ++
          "the\nmodel is forced to miscategorise, and a confident wrong answer is worse than\nan " ++
          "honest \"none of these\".")),
        ("enum", .arr [text "billing", text "technical_support", text "account",
          text "product_question", text "complaint", text "other"]),
        ("title", text "IntentCategory"),
        ("type", text "string")])]),
    ("description", text "The model's classification of a single customer message."),
    ("properties", object [
      ("intent", object [
        ("$ref", text "#/$defs/IntentCategory"),
        ("description", text "Closed-set category. 'other' when no category fits.")]),
      ("confidence", object [
        ("description", text ("The model's SELF-REPORTED confidence, not a calibrated " ++
          "probability. 0.94 means the model asserted high confidence; it does not mean the " ++
          "classification is correct 94% of the time. Do not threshold on this as though it were " ++
          "measured.")),
        ("maximum", .float (.finite 1)),
        ("minimum", .float (.finite 0)),
        ("title", text "Confidence"),
        ("type", text "number")]),
      ("reason", object [
        ("description", text "One short sentence justifying the chosen intent."),
        ("maxLength", .int 280),
        ("minLength", .int 1),
        ("title", text "Reason"),
        ("type", text "string")])]),
    ("required", .arr [text "intent", text "confidence", text "reason"]),
    ("title", text "IntentAnalysis"),
    ("type", text "object")]

/-- `GroundedModelAnswer.model_json_schema()` -/
def groundedModelAnswerSchema : Json :=
  object [
    ("description", text ("What the model returns: prose plus the source numbers it " ++
          "used.\n\nCitations are rebuilt from the retrieved chunks rather than trusted from\nthe " ++
          "model, so a hallucinated document title cannot reach a reader.")),
    ("properties", object [
      ("answered", object [("title", text "Answered"), ("type", text "boolean")]),
      ("answer", object [
        ("maxLength", .int 2000),
        ("minLength", .int 1),
        ("title", text "Answer"),
        ("type", text "string")]),
      ("cited_sources", object [
        ("items", object [("type", text "integer")]),
        ("title", text "Cited Sources"),
        ("type", text "array")])]),
    ("required", .arr [text "answered", text "answer"]),
    ("title", text "GroundedModelAnswer"),
    ("type", text "object")]

/-- What pydantic makes of a field `dict[str, Any]`. -/
def anyDictionary (title : String) : Json :=
  object [
    ("additionalProperties", .bool true),
    ("title", text title),
    ("type", text "object")]

/-- `AgentDecision.model_json_schema()` -/
def agentDecisionSchema : Json :=
  object [
    ("description", text "What the model wants to do next."),
    ("properties", object [
      ("reasoning", object [
        ("default", text ""),
        ("description", text "Why this step was chosen."),
        ("maxLength", .int 500),
        ("title", text "Reasoning"),
        ("type", text "string")]),
      ("tool", object [
        ("anyOf", .arr [object [("type", text "string")], object [("type", text "null")]]),
        ("default", .null),
        ("description", text "Tool to call, or null to answer now."),
        ("title", text "Tool")]),
      ("tool_params", anyDictionary "Tool Params"),
      ("final_answer", object [
        ("anyOf", .arr [object [("maxLength", .int 2000), ("type", text "string")],
          object [("type", text "null")]]),
        ("default", .null),
        ("description", text "The answer, when done."),
        ("title", text "Final Answer")])]),
    ("title", text "AgentDecision"),
    ("type", text "object")]

/-! ## Nodes and children -/

/-- `tightenItems` tightens item by item. -/
theorem tightenItems_eq {xs ys : List Json} :
    tightenItems xs = some ys ↔ List.Forall₂ (fun v w => tighten v = some w) xs ys := by
  induction xs generalizing ys with
  | nil => rw [tightenItems, List.forall₂_nil_left_iff, Option.some.injEq, eq_comm]
  | cons v vs ih =>
    rw [List.forall₂_cons_left_iff]
    simp only [← ih]
    cases hv : tighten v <;> cases hvs : tightenItems vs <;> simp [tightenItems, hv, hvs, eq_comm]

/-- An entry and what becomes of it. -/
def Becomes (kept : PyStr → Bool) (e e' : PyStr × Json) : Prop :=
  e.1 = e'.1 ∧ (if kept e.1 then some e.2 else tighten e.2) = some e'.2

/-- `tightenFields` tightens the fields it does not keep. -/
theorem tightenFields_eq {kept : PyStr → Bool} {fields fields' : PyDict PyStr Json} :
    tightenFields kept fields = some fields' ↔ List.Forall₂ (Becomes kept) fields fields' := by
  induction fields generalizing fields' with
  | nil => rw [tightenFields, List.forall₂_nil_left_iff, Option.some.injEq, eq_comm]
  | cons e fields ih =>
    obtain ⟨key, v⟩ := e
    constructor
    · intro h
      rw [tightenFields] at h
      split at h
      · rename_i w rest hw hrest
        rw [Option.some.injEq] at h
        exact h ▸ .cons ⟨rfl, hw⟩ (ih.mp hrest)
      · exact nomatch h
    · intro h
      obtain _ | ⟨hbecomes, hrest⟩ := h
      rename_i e' fields'
      obtain ⟨key', w⟩ := e'
      obtain ⟨hkey, hw⟩ := hbecomes
      obtain rfl : key = key' := hkey
      rw [tightenFields, hw, ih.mpr hrest]

/-- The keys of a node, stored anew. -/
def close (names : List Json) (children : PyDict PyStr Json) : PyDict PyStr Json :=
  PyDict.set (lit "required") (.arr names)
    (PyDict.set (lit "additionalProperties") (.bool false) children)

/-- `tighten` on an object. -/
theorem tighten_obj_eq {fields : PyDict PyStr Json} {w : Json} :
    tighten (.obj fields) = some w ↔
      ∃ children, List.Forall₂ (Becomes fun key => tightens fields && overwritten key)
        fields children ∧
        ((tightens fields = true ∧ ∃ names,
          (PyDict.get (lit "properties") children).bind pyList = some names ∧
            w = .obj (close names children)) ∨
        (tightens fields = false ∧ w = .obj children)) := by
  simp only [← tightenFields_eq]
  rw [tighten]
  cases tightenFields (fun key => tightens fields && overwritten key) fields with
  | none => simp
  | some children =>
    cases tightens fields with
    | false => simp [eq_comm]
    | true =>
      cases hnames : (PyDict.get (lit "properties") children).bind pyList with
      | none => simp [hnames]
      | some names => simp [hnames, close, eq_comm]

/-! ## What a tightened value was -/

/-- An object becomes an object. -/
theorem obj_of_tighten {fields : PyDict PyStr Json} {w : Json}
    (h : tighten (.obj fields) = some w) : ∃ fields', w = .obj fields' := by
  obtain ⟨children, -, ⟨-, names, -, rfl⟩ | ⟨-, rfl⟩⟩ := tighten_obj_eq.mp h
  · exact ⟨_, rfl⟩
  · exact ⟨_, rfl⟩

/-- A text stays as it is. -/
theorem tighten_of_str (s : PyStr) : tighten (.str s) = some (.str s) := by simp [tighten]

/-- Only a truth value becomes one. -/
theorem tighten_bool {v : Json} {b : Bool} (h : tighten v = some (.bool b)) : v = .bool b := by
  cases v with
  | obj fields =>
    obtain ⟨fields', heq⟩ := obj_of_tighten h
    exact nomatch heq
  | bool b' => simpa [tighten] using h
  | _ => simp [tighten] at h

/-- Only a text becomes one. -/
theorem tighten_str {v : Json} {s : PyStr} (h : tighten v = some (.str s)) : v = .str s := by
  cases v with
  | obj fields =>
    obtain ⟨fields', heq⟩ := obj_of_tighten h
    exact nomatch heq
  | str s' => simpa [tighten] using h
  | _ => simp [tighten] at h

/-- Only an array becomes one. -/
theorem tighten_arr {v : Json} {ys : List Json} (h : tighten v = some (.arr ys)) :
    ∃ xs, v = .arr xs ∧ List.Forall₂ (fun v w => tighten v = some w) xs ys := by
  cases v with
  | arr xs =>
    rw [tighten, Option.map_eq_some_iff] at h
    obtain ⟨ys', hys, heq⟩ := h
    rw [Json.arr.injEq] at heq
    exact ⟨xs, rfl, tightenItems_eq.mp (heq ▸ hys)⟩
  | obj fields =>
    obtain ⟨fields', heq⟩ := obj_of_tighten h
    exact nomatch heq
  | _ => simp [tighten] at h

/-- `tighten` gives the empty array for the empty array only. -/
theorem tighten_nil {v : Json} (h : tighten v = some (.arr [])) : v = .arr [] := by
  obtain ⟨xs, rfl, hxs⟩ := tighten_arr h
  rw [List.forall₂_nil_right_iff.mp hxs]

/-! ## What becomes of the entries of a node -/

section Entries

variable {kept : PyStr → Bool} {fields children : PyDict PyStr Json} {key : PyStr}

/-- The fields keep their names. -/
theorem keys_of_becomes (h : List.Forall₂ (Becomes kept) fields children) :
    PyDict.keys children = PyDict.keys fields := by
  induction h with
  | nil => rfl
  | cons hentry _ ih =>
    unfold PyDict.keys at ih ⊢
    rw [List.map_cons, List.map_cons, ih, hentry.1]

/-- What is under a name becomes what is under it then. -/
theorem get_of_becomes (h : List.Forall₂ (Becomes kept) fields children) (key : PyStr) :
    match PyDict.get key fields, PyDict.get key children with
    | none, none => True
    | some v, some w => (if kept key then some v else tighten v) = some w
    | _, _ => False := by
  induction h with
  | nil => trivial
  | cons hentry _ ih =>
    rename_i e e' rest rest' _
    obtain ⟨k, v⟩ := e
    obtain ⟨k', w⟩ := e'
    obtain ⟨hkey, hw⟩ := hentry
    obtain rfl : k = k' := hkey
    by_cases hk : k = key
    · rw [PyDict.get, PyDict.get, if_pos hk, if_pos hk]
      exact hk ▸ hw
    · rw [PyDict.get, PyDict.get, if_neg hk, if_neg hk]
      exact ih

/-- A field of the tightened children was a field before. -/
theorem get_children (h : List.Forall₂ (Becomes kept) fields children) {w : Json}
    (hw : PyDict.get key children = some w) :
    ∃ v, PyDict.get key fields = some v ∧ (if kept key then some v else tighten v) = some w := by
  have hget := get_of_becomes h key
  rw [hw] at hget
  cases hv : PyDict.get key fields with
  | none => rw [hv] at hget; exact hget.elim
  | some v => rw [hv] at hget; exact ⟨v, rfl, hget⟩

/-- A field that was there becomes a field of the tightened children. -/
theorem get_fields (h : List.Forall₂ (Becomes kept) fields children) {v : Json}
    (hv : PyDict.get key fields = some v) :
    ∃ w, PyDict.get key children = some w ∧ (if kept key then some v else tighten v) = some w := by
  have hget := get_of_becomes h key
  rw [hv] at hget
  cases hw : PyDict.get key children with
  | none => rw [hw] at hget; exact hget.elim
  | some w => rw [hw] at hget; exact ⟨w, rfl, hget⟩

/-- A name is there then just if it was before. -/
theorem isSome_children (h : List.Forall₂ (Becomes kept) fields children) (key : PyStr) :
    (PyDict.get key children).isSome = (PyDict.get key fields).isSome := by
  have hget := get_of_becomes h key
  revert hget
  cases PyDict.get key fields <;> cases PyDict.get key children <;> simp

/-- `isObject` asks for the type `object`. -/
theorem isObject_iff {fields : PyDict PyStr Json} :
    isObject fields = true ↔ PyDict.get (lit "type") fields = some (text "object") := by
  unfold isObject text
  split
  · rename_i s hs
    rw [hs, decide_eq_true_eq, Option.some.injEq, Json.str.injEq]
  · rename_i hno
    constructor
    · intro h
      cases h
    · exact fun h => absurd h (hno _)

/-- A node is an object after as before. -/
theorem isObject_children (h : List.Forall₂ (Becomes kept) fields children)
    (hkept : kept (lit "type") = false) : isObject children = isObject fields := by
  rw [Bool.eq_iff_iff, isObject_iff, isObject_iff]
  constructor
  · intro hobject
    obtain ⟨v, hv, hbecomes⟩ := get_children h hobject
    rw [hkept, if_neg Bool.false_ne_true] at hbecomes
    rw [hv, tighten_str hbecomes]
    rfl
  · intro hobject
    obtain ⟨w, hw, hbecomes⟩ := get_fields h hobject
    rw [hkept, if_neg Bool.false_ne_true, text, tighten_of_str, Option.some.injEq] at hbecomes
    rw [hw, ← hbecomes, text]

/-- `close` leaves the fields it does not overwrite. -/
theorem get_close_of_ne {names : List Json} (h : overwritten key = false) :
    PyDict.get key (close names children) = PyDict.get key children := by
  simp only [overwritten, Bool.or_eq_false_iff, decide_eq_false_iff_not] at h
  rw [close, PyDict.get_set_ne h.2, PyDict.get_set_ne h.1]

/-- `close` leaves the type of a schema. -/
theorem isObject_close {names : List Json} : isObject (close names children) = isObject children := by
  unfold isObject
  rw [get_close_of_ne (by decide)]

end Entries

end StrictSchema

end NexaAssist
