import NexaAssist.Frontend.Client
import NexaAssist.Llm.RateLimit

/-!
# Values of the server's at the client

What `JSON.parse` makes of a value that the server wrote. Floats are written by Python, and how
is not told here: what counts is that they are read as what they are.
-/

namespace NexaAssist.Frontend

open PyJson JsonText
open RateLimit (write writeItems writeFields floats itemFloats fieldFloats)
open ApiError (property stringProperty)

/-- A value of the server's, as the client has it. -/
def received (content : Json) : JsonDoc := plain jsInt (write content)

section Text

variable {print : Rat → PyStr}

variable (print) in
/-- The floats of a value are written as texts that are read as what they are. -/
def Prints (content : Json) : Prop :=
  ∀ x, PyFloat.finite x ∈ floats content → number jsInt (print x) = some (.float x)

/-- A text without escapes can be written. -/
theorem all_writable_raw (text : PyStr) : (text.map StrItem.raw).all writable = true := by
  rw [List.all_map, List.all_eq_true]
  exact fun _ _ => rfl

/-- A text without escapes is read as it is. -/
theorem map_plainItem_raw (text : PyStr) :
    (text.map StrItem.raw).map plainItem = text.map StrItem.raw := by
  rw [List.map_map]
  rfl

/-- What `write` makes of content with finite, printable floats can be printed. -/
theorem printable_write {content : Json} (hfinite : (floats content).all RateLimit.isFinite = true)
    (hprint : Prints print content) : Printable jsInt print (write content) := by
  -- Structural induction: only floats and texts are asked for anything
  induction content with
  | float f =>
    cases f with
    | finite x =>
      rw [write, Printable]
      exact hprint x (by simp [floats])
    | inf negative => simp [floats, RateLimit.isFinite] at hfinite
    | nan object => simp [floats, RateLimit.isFinite] at hfinite
  | str s =>
    rw [write, Printable]
    exact all_writable_raw s
  | arr xs ih =>
    rw [floats] at hfinite
    rw [write, Printable]
    rw [Prints, floats] at hprint
    induction xs with
    | nil => trivial
    | cons v vs ihvs =>
      rw [itemFloats, List.all_append, Bool.and_eq_true] at hfinite
      rw [itemFloats] at hprint
      rw [writeItems, PrintableItems]
      exact ⟨ih v List.mem_cons_self hfinite.1 fun x hx => hprint x (List.mem_append_left _ hx),
        ihvs (fun v hv => ih v (List.mem_cons_of_mem _ hv)) hfinite.2
          fun x hx => hprint x (List.mem_append_right _ hx)⟩
  | obj fields ih =>
    rw [floats] at hfinite
    rw [write, Printable]
    rw [Prints, floats] at hprint
    induction fields with
    | nil => trivial
    | cons e fields ihfields =>
      obtain ⟨key, v⟩ := e
      rw [fieldFloats, List.all_append, Bool.and_eq_true] at hfinite
      rw [fieldFloats] at hprint
      rw [writeFields, PrintableFields]
      exact ⟨⟨all_writable_raw key, ih (key, v) List.mem_cons_self hfinite.1
          fun x hx => hprint x (List.mem_append_left _ hx)⟩,
        ihfields (fun e he => ih e (List.mem_cons_of_mem _ he)) hfinite.2
          fun x hx => hprint x (List.mem_append_right _ hx)⟩
  | _ => trivial

/-- What is written of a value is read. -/
theorem parse_write {content : Json} (hfinite : (floats content).all RateLimit.isFinite = true)
    (hprint : Prints print content) :
    parseJson (docText print (write content)) = some (received content) :=
  parse_docText (printable_write hfinite hprint)

end Text

/-! ## What the client has -/

/-- The client has each field under its key, as `received` has its value. -/
theorem plainFields_eq_map (fields : List (PyStr × Json)) :
    plainFields jsInt (writeFields fields) =
      fields.map fun field => (field.1.map .raw, received field.2) := by
  induction fields with
  | nil => rfl
  | cons field fields ih =>
    obtain ⟨key, v⟩ := field
    rw [writeFields, plainFields, ih, map_plainItem_raw]
    rfl

/-- A property is what the server had under its name. -/
theorem property_received (name : String) (fields : List (PyStr × Json)) :
    property name (plainFields jsInt (writeFields fields)) =
      (fields.reverse.find? fun field => field.1 = lit name).map fun field => received field.2 := by
  rw [property, plainFields_eq_map, ← List.map_reverse, List.find?_map, Option.map_map]
  simp only [Function.comp_def, loadsStr_map_raw]

/-- A text is received as it is. -/
theorem received_str (text : PyStr) : received (.str text) = .str (text.map .raw) := by
  rw [received, write, plain, map_plainItem_raw]

end NexaAssist.Frontend
