import Mathlib.Algebra.GroupWithZero.Nat
import NexaAssist.ForStd.PyJson

/-!
# JavaScript strings and `JSON.stringify`

A JavaScript string is a list of UTF-16 units. `JSON.stringify` writes a surrogate that is in
no pair as an escape, as it does a control character, a quote and a backslash, and all else
as it is. A reader gets back the string's code points.
-/

namespace PyJson

/-- A UTF-16 unit. -/
abbrev JsUnit := Fin 0x10000

instance instNeZeroJsUnit : NeZero 0x10000 := ⟨Nat.succ_ne_zero _⟩

abbrev JsString := List JsUnit

/-- An ASCII literal. -/
def JsString.ofAscii (s : String) : JsString := s.toList.map fun c => Fin.ofNat 0x10000 c.toNat

/-- The code points of a string. A surrogate that is in no pair is one. -/
def JsString.codePoints (s : JsString) : PyStr := norm (s.map (Fin.castLE (by decide)))

/-- One code point in a string of `JSON.stringify`, up to how it is escaped. -/
def stringifyChar (c : CodePoint) : StrItem := if isSurrogate c then .esc c else .raw c

/-- `JSON.stringify` of a string. -/
def JsString.stringify (s : JsString) : List StrItem := s.codePoints.map stringifyChar

/-- An object whose values are strings and `null`s. -/
abbrev JsObject := List (String × Option JsString)

def stringifyValue : Option JsString → JsonDoc
  | none => .null
  | some s => .str s.stringify

/-- `JSON.stringify` of an object. -/
def JsObject.stringify (o : JsObject) : JsonDoc :=
  .object (o.map fun field => ((PyStr.ofString field.1).map .raw, stringifyValue field.2))

/-! ## How many bytes it takes -/

/-- The bytes of a code point in UTF-8. -/
def utf8Bytes (c : CodePoint) : Nat :=
  if c.val < 0x80 then 1 else if c.val < 0x800 then 2 else if c.val < 0x10000 then 3 else 4

/-- The bytes of an item as `JSON.stringify` spells it. Some characters have an escape of two
    characters, the other control characters one of six. -/
def itemBytes : StrItem → Nat
  | .esc _ => 6
  | .raw c =>
    if c.val ∈ [0x08, 0x09, 0x0A, 0x0C, 0x0D, 0x22, 0x5C] then 2
    else if c.val < 0x20 then 6
    else utf8Bytes c

/-- The bytes of a string in its quotes. -/
def stringBytes (items : List StrItem) : Nat := (items.map itemBytes).sum + 2

def valueBytes : Option JsString → Nat
  | none => 4
  | some s => stringBytes s.stringify

/-- A key, a colon and a value. -/
def fieldBytes (field : String × Option JsString) : Nat :=
  stringBytes ((PyStr.ofString field.1).map .raw) + 1 + valueBytes field.2

/-- The fields between braces, with commas between them. -/
def JsObject.bytes (o : JsObject) : Nat := (o.map fieldBytes).sum + (o.length - 1) + 2

/-- No item of a text takes more than six bytes. -/
theorem itemBytes_le_six (item : StrItem) : itemBytes item ≤ 6 := by
  cases item with
  | esc _ => exact le_rfl
  | raw c =>
    unfold itemBytes utf8Bytes
    repeat' split
    all_goals omega

/-- A text takes at most six bytes for each item, and its two quotes. -/
theorem stringBytes_le (items : List StrItem) : stringBytes items ≤ 6 * items.length + 2 := by
  induction items with
  | nil => simp [stringBytes]
  | cons item items ih =>
    have := itemBytes_le_six item
    simp only [stringBytes, List.map_cons, List.sum_cons, List.length_cons] at ih ⊢
    omega

/-- `stringify` writes as many items as the text has code points. -/
theorem JsString.length_stringify (s : JsString) : s.stringify.length = s.codePoints.length :=
  List.length_map ..

/-- A value takes at most six bytes for each code point of its text, or the four of `null`. -/
theorem valueBytes_le (value : Option JsString) :
    valueBytes value ≤ 6 * (value.elim 0 fun s => s.codePoints.length) + 4 := by
  cases value with
  | none => exact le_rfl
  | some s =>
    have := stringBytes_le s.stringify
    rw [s.length_stringify] at this
    simp only [valueBytes, Option.elim_some]
    omega

/-- A field takes at most six bytes for each code point of its key and its text, and seven more. -/
theorem fieldBytes_le (key : String) (value : Option JsString) :
    fieldBytes (key, value) ≤
      6 * key.length + 6 * (value.elim 0 fun s => s.codePoints.length) + 7 := by
  have hkey := stringBytes_le ((PyStr.ofString key).map .raw)
  have hvalue := valueBytes_le value
  simp only [List.length_map, PyStr.ofString, String.length_toList] at hkey
  simp only [fieldBytes, PyStr.ofString]
  omega

/-! ## What a reader gets -/

/-- `loadsStr` reads back what `stringifyChar` writes of a text without a surrogate pair. -/
theorem loadsStr_map_stringifyChar (s : PyStr) (h : pairFree s = true) :
    loadsStr (s.map stringifyChar) = s := by
  induction s with
  | nil => rfl
  | cons c rest ih =>
    have hrest : pairFree rest = true := by
      cases rest with
      | nil => rfl
      | cons d rest => exact (Bool.and_eq_true _ _ ▸ h).2
    rw [List.map_cons, stringifyChar]
    split
    · -- What comes after the surrogate does not make a pair with it.
      rw [loadsStr_esc_cons, ih hrest]
      intro v items hitems
      cases rest with
      | nil => exact nomatch hitems
      | cons d rest =>
        have hpair := (Bool.and_eq_true _ _ ▸ h).1
        rw [List.map_cons, List.cons.injEq, stringifyChar] at hitems
        split at hitems
        · rw [← StrItem.esc.inj hitems.1]
          exact Bool.not_eq_true' _ |>.mp hpair
        · exact nomatch hitems.1
    · rw [loadsStr, ih hrest]

/-- A string is read back as its code points. -/
theorem JsString.loadsStr_stringify (s : JsString) : loadsStr s.stringify = s.codePoints :=
  loadsStr_map_stringifyChar s.codePoints (pairFree_norm _)

/-- `loads` reads back what `stringifyValue` writes. -/
theorem loads_stringifyValue (value : Option JsString) :
    loads (stringifyValue value) = value.elim .none fun s => .str s.codePoints := by
  cases value with
  | none => rfl
  | some s => rw [stringifyValue, loads, s.loadsStr_stringify, Option.elim_some]

/-- An object is read back with its keys and values, in their order. -/
theorem JsObject.loads_stringify (o : JsObject) :
    loads o.stringify = .dict (dictOf (o.map fun field =>
      (.str (.ofString field.1), field.2.elim .none fun s => .str s.codePoints))) := by
  rw [JsObject.stringify, loads]
  congr 2
  induction o with
  | nil => rfl
  | cons field o ih =>
    rw [List.map_cons, List.map_cons, loadsFields, loadsStr_map_raw, loads_stringifyValue, ih]

/-! ## Plain text -/

/-- A string without surrogates has its units for code points. -/
theorem JsString.codePoints_of_wellFormed {s : JsString}
    (h : wellFormed (s.map (Fin.castLE (by decide))) = true) :
    s.codePoints = s.map (Fin.castLE (by decide)) :=
  norm_of_pairFree _ (pairFree_of_wellFormed _ h)

/-- `norm` leaves something of a text that is not empty. -/
theorem norm_ne_nil {s : PyStr} (h : s ≠ []) : norm s ≠ [] := by
  fun_cases norm s with
  | case1 => exact h
  | case2 c => exact List.cons_ne_nil _ _
  | case3 c d rest hpair => exact List.cons_ne_nil _ _
  | case4 c d rest hpair => exact List.cons_ne_nil _ _

/-- A text that is not empty has a code point. -/
theorem JsString.codePoints_ne_nil {s : JsString} (h : s ≠ []) : s.codePoints ≠ [] :=
  norm_ne_nil fun hmap => h (List.map_eq_nil_iff.mp hmap)

end PyJson
