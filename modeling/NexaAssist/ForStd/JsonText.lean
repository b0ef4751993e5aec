import NexaAssist.ForStd.PyFloatText
import NexaAssist.ForStd.PyJson
import NexaAssist.ForStd.PyNumeral
import NexaAssist.ForStd.PyRepr

/-!
# JSON as text

A writer of JSON documents, and a reader of JSON texts after the grammar of the standard. Whatever
is written is read back, but for the escapes that a reader undoes: which characters of a string
were escaped is not told once they are read, unless they are halves of a surrogate pair.
-/

namespace PyJson

namespace JsonDoc

/-- Induction on a document, with hypotheses for what a container holds. -/
@[elab_as_elim]
theorem ind {P : JsonDoc → Prop} (null : P .null) (bool : ∀ b, P (.bool b))
    (int : ∀ i, P (.int i)) (float : ∀ x, P (.float x)) (infinity : ∀ b, P (.infinity b))
    (nan : P .nan) (str : ∀ items, P (.str items))
    (array : ∀ xs, (∀ d ∈ xs, P d) → P (.array xs))
    (object : ∀ fields, (∀ f ∈ fields, P f.2) → P (.object fields)) (d : JsonDoc) : P d :=
  @JsonDoc.rec P (fun xs => ∀ d ∈ xs, P d) (fun fs => ∀ f ∈ fs, P f.2) (fun f => P f.2)
    null bool int float infinity nan str array object
    (by simp) (fun _ _ hd hxs => by simpa using ⟨hd, hxs⟩)
    (by simp) (fun _ _ hf hfs => by simpa using ⟨hf, fun a b => hfs (a, b)⟩)
    (fun _ _ hd => hd) d

end JsonDoc

namespace JsonText

/-! ## Strings -/

/-- The characters that are escaped by a letter, each with its letter. -/
def letters : List (CodePoint × CodePoint) :=
  [(0x22, 0x22), (0x5c, 0x5c), (0x08, 0x62), (0x0c, 0x66), (0x0a, 0x6e), (0x0d, 0x72), (0x09, 0x74)]

/-- Those that a reader knows. -/
def known : List (CodePoint × CodePoint) := letters ++ [(0x2f, 0x2f)]

/-- An escape of a unit. -/
def unitText (unit : Nat) : PyStr := [0x5c, 0x75] ++ hexDigits 4 unit

/-- One character of a string, between its quotes. -/
def itemText : StrItem → PyStr
  | .raw c =>
    match letters.find? fun e => e.1 = c with
    | some e => [0x5c, e.2]
    | none => if c.val < 0x20 then unitText c.val else [c]
  | .esc unit => unitText unit.val

def stringText (items : List StrItem) : PyStr := [0x22] ++ items.flatMap itemText ++ [0x22]

/-- What a hexadecimal digit stands for. -/
def hexValue (c : CodePoint) : Option Nat :=
  if 0x30 ≤ c.val ∧ c.val ≤ 0x39 then some (c.val - 0x30)
  else if 0x61 ≤ c.val ∧ c.val ≤ 0x66 then some (c.val - 0x61 + 10)
  else if 0x41 ≤ c.val ∧ c.val ≤ 0x46 then some (c.val - 0x41 + 10)
  else none

/-- The unit of an escape. One that is no half of a surrogate pair is its character. -/
def readUnit (unit : Nat) : StrItem :=
  let c := Fin.ofNat 0x110000 unit
  if isSurrogate c then .esc c else .raw c

/-- Four hexadecimal digits. -/
def unitOf (a b c d : CodePoint) : Option StrItem := do
  let a ← hexValue a
  let b ← hexValue b
  let c ← hexValue c
  let d ← hexValue d
  return readUnit (((a * 16 + b) * 16 + c) * 16 + d)

/-- The characters up to the closing quote, and the text after it. -/
def chars : PyStr → Option (List StrItem × PyStr)
  | [] => none
  | c :: text =>
    if c = 0x22 then some ([], text)
    else if c = 0x5c then
      match text with
      | [] => none
      | e :: text =>
        if e = 0x75 then
          match text with
          | h₁ :: h₂ :: h₃ :: h₄ :: text => do
            let item ← unitOf h₁ h₂ h₃ h₄
            let (items, rest) ← chars text
            return (item :: items, rest)
          | _ => none
        else do
          let escaped ← known.find? fun entry => entry.2 = e
          let (items, rest) ← chars text
          return (.raw escaped.1 :: items, rest)
    else if c.val < 0x20 then none
    else do
      let (items, rest) ← chars text
      return (.raw c :: items, rest)

/-- What is left of an item once it is read. -/
def plainItem : StrItem → StrItem
  | .raw c => .raw c
  | .esc unit => readUnit unit.val

/-- `hexValue` reads what `hexDigit` writes. -/
theorem hexValue_hexDigit : ∀ n < 16, hexValue (hexDigit n) = some n := by decide

/-- `unitOf` reads four digits of a unit. -/
theorem unitOf_hexDigits {unit : Nat} (h : unit < 0x10000) :
    ∃ a b c d, hexDigits 4 unit = [a, b, c, d] ∧ unitOf a b c d = some (readUnit unit) := by
  refine ⟨hexDigit (unit / 16 / 16 / 16 % 16), hexDigit (unit / 16 / 16 % 16),
    hexDigit (unit / 16 % 16), hexDigit (unit % 16), rfl, ?_⟩
  have hdigit (n : Nat) : hexValue (hexDigit (n % 16)) = some (n % 16) :=
    hexValue_hexDigit _ (Nat.mod_lt _ (by decide))
  have hsum : ((unit / 16 / 16 / 16 % 16 * 16 + unit / 16 / 16 % 16) * 16 + unit / 16 % 16) * 16 +
      unit % 16 = unit := by omega
  simp only [unitOf, hdigit, bind, Option.bind, hsum]
  rfl

/-- An item that can be written: an escape is of a unit of 16 bits. -/
def writable : StrItem → Bool
  | .raw _ => true
  | .esc unit => unit.val < 0x10000

/-- `chars` reads an escaped unit. -/
theorem chars_unitText {unit : Nat} (h : unit < 0x10000) (rest : PyStr) :
    chars (unitText unit ++ rest) =
      (chars rest).map fun p => (readUnit unit :: p.1, p.2) := by
  obtain ⟨a, b, c, d, hdigits, hunit⟩ := unitOf_hexDigits h
  have htext : unitText unit ++ rest = 0x5c :: 0x75 :: a :: b :: c :: d :: rest := by
    rw [unitText, hdigits]
    rfl
  rw [htext, chars, if_neg (by decide), if_pos rfl]
  simp only [if_true, hunit]
  cases chars rest <;> rfl

/-- `chars` reads an item. -/
theorem chars_itemText {item : StrItem} (h : writable item = true) (rest : PyStr) :
    chars (itemText item ++ rest) =
      (chars rest).map fun p => (plainItem item :: p.1, p.2) := by
  cases item with
  -- A unit that was written as an escape is read back by its four digits
  | esc unit => exact chars_unitText (of_decide_eq_true h) rest
  | raw c =>
    rw [itemText]
    split
    · -- an escape by a letter, which is known
      rename_i e he
      have hmem := List.mem_of_find?_eq_some he
      have hc : e.1 = c := by simpa using List.find?_some he
      have hknown : letters.all (fun entry => entry.2 ≠ 0x75 ∧
          known.find? (fun other => other.2 = entry.2) = some entry) = true := by decide
      obtain ⟨hletter, hfind⟩ := of_decide_eq_true (List.all_eq_true.mp hknown e hmem)
      rw [List.cons_append, List.cons_append, List.nil_append, chars.eq_def]
      simp only [if_neg hletter, hfind]
      subst hc
      cases chars rest <;> rfl
    · rename_i hnone
      rw [List.find?_eq_none] at hnone
      split
      -- A control character has an escape of its own number
      · rename_i hlow
        have hplain : readUnit c.val = .raw c := by
          have hval : Fin.ofNat 0x110000 c.val = c := Fin.ofNat_val_eq_self c
          rw [readUnit, hval, if_neg]
          simp only [isSurrogate, isHigh, isLow]
          simp
          omega
        rw [chars_unitText (by omega), hplain]
        rfl
      -- Any other character stands for itself
      · rename_i hhigh
        have hquote : c ≠ 0x22 := fun heq => hnone (0x22, 0x22) (by decide) (by simp [heq])
        have hslash : c ≠ 0x5c := fun heq => hnone (0x5c, 0x5c) (by decide) (by simp [heq])
        rw [List.singleton_append, chars.eq_def]
        simp only [if_neg hquote, if_neg hslash, if_neg hhigh]
        cases chars rest <;> rfl

/-- `chars` reads the items of a text up to the closing quote. -/
theorem chars_text {items : List StrItem} (h : items.all writable = true) (rest : PyStr) :
    chars (items.flatMap itemText ++ 0x22 :: rest) = some (items.map plainItem, rest) := by
  induction items with
  | nil =>
    rw [List.flatMap_nil, List.nil_append, chars.eq_def]
    rfl
  | cons item items ih =>
    rw [List.all_cons, Bool.and_eq_true] at h
    rw [List.flatMap_cons, List.append_assoc, chars_itemText h.1, ih h.2]
    rfl

/-! ## Numbers -/

/-- A character that a number is written with. -/
def numeral (c : CodePoint) : Bool :=
  Numeral.isDigit c || c = 0x2b || c = 0x2d || c = 0x2e || c = 0x45 || c = 0x65

/-- Digits of which the first is a zero only where it is the last. -/
def whole : PyStr → Bool
  | [] => false
  | [c] => Numeral.isDigit c
  | c :: digits => c ≠ 0x30 && (c :: digits).all Numeral.isDigit

/-- A minus sign, and the text after it. -/
def minus : PyStr → Bool × PyStr
  | [] => (false, [])
  | c :: text => if c = 0x2d then (true, text) else (false, c :: text)

/-- The float of a fraction. -/
def floatOf (value : Rat) : JsonDoc :=
  if outOfRange value then .infinity (value < 0) else .float (Rounding.nearest value)

/-- A point has a digit after it. -/
def pointed : PyStr → Bool
  | [] => true
  | c :: after => c ≠ 0x2e || after.head?.any Numeral.isDigit

variable (ofInt : Int → JsonDoc)

/-- The number a token is of. A number with neither a fraction nor an exponent is read by
    `ofInt`. -/
def number (token : PyStr) : Option JsonDoc :=
  let (negative, unsigned) := minus token
  let rest := unsigned.dropWhile Numeral.isDigit
  if !whole (unsigned.takeWhile Numeral.isDigit) || !pointed rest then none
  else if rest.isEmpty then
    some (ofInt (if negative then -Numeral.ofDigits unsigned else Numeral.ofDigits unsigned))
  else (Numeral.magnitude unsigned).map fun value => floatOf (if negative then -value else value)

/-- `str` of a whole number. -/
def intText (i : Int) : PyStr := .ofString (toString i)

/-- A character is its code point. -/
theorem codePoint_val (c : Char) : (Fin.ofNat 0x110000 c.toNat).val = c.toNat := by
  have hvalid : c.toNat.isValidChar := c.valid
  unfold Nat.isValidChar at hvalid
  exact Nat.mod_eq_of_lt (by omega)

/-- A digit is a digit. -/
theorem isDigit_of_isDigit {c : Char} (h : c.isDigit = true) :
    Numeral.isDigit (Fin.ofNat 0x110000 c.toNat) = true := by
  rw [Char.isDigit_iff_toNat] at h
  rw [Numeral.isDigit, codePoint_val, Bool.and_eq_true, decide_eq_true_iff, decide_eq_true_iff]
  exact h

/-- A number is written digit by digit. -/
theorem ofString_repr (n : Nat) :
    PyStr.ofString n.repr = (Nat.toDigits 10 n).map fun c => Fin.ofNat 0x110000 c.toNat := by
  rw [PyStr.ofString, Nat.toList_repr]

/-- With digits only. -/
theorem all_isDigit_repr (n : Nat) : (PyStr.ofString n.repr).all Numeral.isDigit = true := by
  rw [ofString_repr, List.all_map, List.all_eq_true]
  intro c hc
  exact isDigit_of_isDigit (Nat.isDigit_of_mem_toDigits (by decide) (by decide) hc)

/-- `ofDigits` reads it back. -/
theorem ofDigits_repr (n : Nat) : Numeral.ofDigits (PyStr.ofString n.repr) = n := by
  rw [ofString_repr, Numeral.ofDigits, List.foldl_map]
  simp only [codePoint_val]
  exact Nat.ofDigitChars_ten_toDigits

/-- A number but zero starts with no zero. -/
theorem head_toDigits (n : Nat) (h : 0 < n) : (Nat.toDigits 10 n).head? ≠ some '0' := by
  induction n using Nat.strongRecOn with
  | ind n ih =>
    rw [Nat.toDigits_eq_if (by decide)]
    split
    · rename_i hlt
      have hdigit : ∀ d < 10, 0 < d → [Nat.digitChar d].head? ≠ some '0' := by decide
      exact hdigit n hlt h
    · rename_i hge
      rw [List.head?_append_of_ne_nil _ Nat.toDigits_ne_nil]
      exact ih (n / 10) (by omega) (by omega)

/-- Digits that do not begin with a zero are a whole number. -/
theorem whole_cons {c : CodePoint} {digits : PyStr} (hc : c ≠ 0x30)
    (h : (c :: digits).all Numeral.isDigit = true) : whole (c :: digits) = true := by
  cases digits with
  | nil => simpa [whole] using h
  | cons d digits =>
    simp only [whole, h, Bool.and_true]
    exact decide_eq_true hc

/-- The digits of a written number are those of a whole number. -/
theorem whole_repr (n : Nat) : whole (PyStr.ofString n.repr) = true := by
  obtain rfl | hpos := Nat.eq_zero_or_pos n
  · decide
  · have hhead := head_toDigits n hpos
    have hdigits := all_isDigit_repr n
    rw [ofString_repr] at hdigits ⊢
    cases htext : Nat.toDigits 10 n with
    | nil => exact absurd htext Nat.toDigits_ne_nil
    | cons c text =>
      rw [htext] at hdigits hhead
      refine whole_cons (fun hzero => hhead ?_) hdigits
      have hval := congrArg Fin.val hzero
      rw [codePoint_val] at hval
      exact congrArg some (Char.toNat_inj.mp hval)

/-- `takeWhile` and `dropWhile` part a text where its first kind of characters ends. -/
theorem span_of_all {p : CodePoint → Bool} {front rest : PyStr} (h : front.all p = true)
    (hrest : rest.head?.all (fun c => !p c) = true) :
    (front ++ rest).takeWhile p = front ∧ (front ++ rest).dropWhile p = rest := by
  rw [List.all_eq_true] at h
  rw [List.takeWhile_append_of_pos h, List.dropWhile_append_of_pos h]
  cases rest with
  | nil => simp
  | cons c rest =>
    have hc : p c = false := by simpa using hrest
    simp [hc]

/-- `number` reads a sign and the digits behind it. -/
theorem number_repr (negative : Bool) (n : Nat) :
    number ofInt ((if negative then [0x2d] else []) ++ PyStr.ofString n.repr) =
      some (ofInt (if negative then -(n : Int) else n)) := by
  have hdigits := all_isDigit_repr n
  have hminus : minus ((if negative then [0x2d] else []) ++ PyStr.ofString n.repr) =
      (negative, PyStr.ofString n.repr) := by
    cases negative with
    | true => rfl
    | false =>
      -- No digit is a minus sign
      cases htext : PyStr.ofString n.repr with
      | nil => rfl
      | cons c text =>
        have hc : c ≠ 0x2d := by
          rintro rfl
          rw [htext] at hdigits
          cases hdigits
        exact if_neg hc
  obtain ⟨htake, hdrop⟩ := @span_of_all _ (.ofString n.repr) [] hdigits rfl
  rw [List.append_nil] at htake hdrop
  simp only [number, hminus, htake, hdrop, whole_repr, ofDigits_repr]
  rfl

/-- `number` reads what `intText` writes. -/
theorem number_intText (i : Int) : number ofInt (intText i) = some (ofInt i) := by
  rw [intText, Int.toString_eq_repr, Int.repr_eq_if]
  split
  · rename_i hnonneg
    have h := number_repr ofInt false i.toNat
    rwa [if_neg Bool.false_ne_true, if_neg Bool.false_ne_true, List.nil_append,
      Int.toNat_of_nonneg hnonneg] at h
  · rename_i hneg
    have h := number_repr ofInt true (-i).toNat
    have htext : PyStr.ofString ("-" ++ (-i).toNat.repr) =
        [0x2d] ++ PyStr.ofString (-i).toNat.repr := by
      rw [PyStr.ofString, String.toList_append, List.map_append]
      rfl
    rw [htext]
    rwa [if_pos rfl, if_pos rfl, Int.toNat_of_nonneg (by omega), Int.neg_neg] at h

/-! ### What numbers are written with -/

/-- A digit may stand in a numeral. -/
theorem numeral_of_isDigit {c : CodePoint} (h : Numeral.isDigit c = true) : numeral c = true := by
  simp [numeral, h]

/-- Digits may stand in a numeral. -/
theorem all_numeral_of_isDigit {text : PyStr} (h : text.all Numeral.isDigit = true) :
    text.all numeral = true := by
  rw [List.all_eq_true] at h ⊢
  exact fun c hc => numeral_of_isDigit (h c hc)

/-- A text may stand in a numeral if what `sign` leaves of it may. -/
theorem sign_numeral {text : PyStr} (h : (Numeral.sign text).2.all numeral = true) :
    text.all numeral = true := by
  cases text with
  | nil => rfl
  | cons c digits =>
    simp only [Numeral.sign] at h
    split at h
    · rename_i hminus
      have hc : c = 0x2d := Fin.ext hminus
      rw [List.all_cons, h, hc]
      rfl
    · split at h
      · rename_i hplus
        have hc : c = 0x2b := Fin.ext hplus
        rw [List.all_cons, h, hc]
        rfl
      · exact h

/-- What `exponent` reads has characters of numerals only. -/
theorem exponent_numeral {text : PyStr} {e : Int} (h : Numeral.exponent text = some e) :
    text.all numeral = true := by
  cases text with
  | nil => rfl
  | cons c text =>
    unfold Numeral.exponent at h
    simp only [Bool.and_eq_true, Bool.or_eq_true, decide_eq_true_eq] at h
    split at h
    · rename_i hexp
      obtain ⟨⟨hc, -⟩, hdigits⟩ := hexp
      have hmark : numeral c = true := by
        have hcases : c = 0x65 ∨ c = 0x45 := hc.imp Fin.ext Fin.ext
        obtain rfl | rfl := hcases <;> decide
      rw [List.all_cons, hmark, sign_numeral (all_numeral_of_isDigit hdigits)]
      rfl
    · cases h

/-- The digits in front of a text may stand in a numeral. -/
theorem all_takeWhile_numeral (text : PyStr) :
    (text.takeWhile Numeral.isDigit).all numeral = true :=
  all_numeral_of_isDigit List.all_takeWhile

/-- The characters that `magnitude` reads may stand in a numeral. -/
theorem magnitude_numeral {text : PyStr} {value : Rat} (h : Numeral.magnitude text = some value) :
    text.all numeral = true := by
  have hwhole := all_takeWhile_numeral text
  -- The digits in front are done; what is left is a point, an exponent or nothing
  have hparts : text.all numeral = ((text.takeWhile Numeral.isDigit).all numeral &&
      (text.dropWhile Numeral.isDigit).all numeral) := by
    rw [← List.all_append, List.takeWhile_append_dropWhile]
  rw [hparts, hwhole, Bool.true_and]
  unfold Numeral.magnitude at h
  cases hrest : text.dropWhile Numeral.isDigit with
  | nil => rfl
  | cons c after =>
    rw [hrest] at h
    simp only at h
    by_cases hpoint : c.val = 0x2e
    · rw [if_pos hpoint] at h
      simp only at h
      split at h
      · cases h
      · obtain ⟨e, he, -⟩ := Option.map_eq_some_iff.mp h
        -- Behind the point come digits and then an exponent
        have hafter : after.all numeral = true := by
          rw [← List.takeWhile_append_dropWhile (p := Numeral.isDigit) (l := after), List.all_append,
            all_takeWhile_numeral, exponent_numeral he]
          rfl
        have hc : c = 0x2e := Fin.ext hpoint
        rw [List.all_cons, hafter, hc]
        rfl
    · rw [if_neg hpoint] at h
      simp only at h
      split at h
      · cases h
      · obtain ⟨e, he, -⟩ := Option.map_eq_some_iff.mp h
        exact exponent_numeral he

/-- A token that `number` reads is not empty, and all of its characters may stand in a numeral. -/
theorem number_numeral {token : PyStr} {d : JsonDoc} (h : number ofInt token = some d) :
    token ≠ [] ∧ token.all numeral = true := by
  have hne : token ≠ [] := by
    rintro rfl
    cases h
  refine ⟨hne, ?_⟩
  -- What is behind the sign is digits alone, or a magnitude
  have hunsigned : (minus token).2.all numeral = true := by
    simp only [number] at h
    generalize minus token = signed at h
    split at h
    · cases h
    · split at h
      · rename_i hrest
        have hdigits := List.takeWhile_append_dropWhile (p := Numeral.isDigit) (l := signed.2)
        rw [List.isEmpty_iff.mp hrest, List.append_nil] at hdigits
        rw [← hdigits]
        exact all_takeWhile_numeral _
      · obtain ⟨value, hvalue, -⟩ := Option.map_eq_some_iff.mp h
        exact magnitude_numeral hvalue
  cases token with
  | nil => rfl
  | cons c text =>
    rw [minus] at hunsigned
    split at hunsigned
    · rename_i hminus
      rw [List.all_cons, hunsigned, hminus]
      rfl
    · exact hunsigned

/-! ## Documents -/

variable (print : Rat → PyStr)

mutual

/-- A document as a text without blanks. -/
def docText : JsonDoc → PyStr
  | .null => .ofString "null"
  | .bool true => .ofString "true"
  | .bool false => .ofString "false"
  | .int i => intText i
  | .float value => print value
  | .infinity true => .ofString "-Infinity"
  | .infinity false => .ofString "Infinity"
  | .nan => .ofString "NaN"
  | .str items => stringText items
  | .array xs => 0x5b :: (itemsText xs ++ [0x5d])
  | .object fields => 0x7b :: (fieldsText fields ++ [0x7d])

def itemsText : List JsonDoc → PyStr
  | [] => []
  | d :: ds => docText d ++ (if ds.isEmpty then [] else 0x2c :: itemsText ds)

def fieldsText : List (List StrItem × JsonDoc) → PyStr
  | [] => []
  | (key, d) :: fields =>
    stringText key ++ 0x3a :: (docText d ++
      (if fields.isEmpty then [] else 0x2c :: fieldsText fields))

end

def blank (c : CodePoint) : Bool := c = 0x20 || c = 0x09 || c = 0x0a || c = 0x0d

/-- What follows blanks. -/
def skip (text : PyStr) : PyStr := text.dropWhile blank

/-- A word at the front of a text. -/
def word (name : String) (doc : JsonDoc) (text : PyStr) : Option (JsonDoc × PyStr) :=
  if (PyStr.ofString name).isPrefixOf text then some (doc, text.drop name.length) else none

mutual

/-- The value at the front of a text, and the text after it. -/
def value : Nat → PyStr → Option (JsonDoc × PyStr)
  | 0, _ => none
  | _, [] => none
  | fuel + 1, c :: text =>
    if c = 0x22 then (chars text).map fun p => (.str p.1, p.2)
    else if c = 0x5b then
      if (skip text).head? = some 0x5d then some (.array [], (skip text).tail)
      else (items fuel (skip text)).map fun p => (.array p.1, p.2)
    else if c = 0x7b then
      if (skip text).head? = some 0x7d then some (.object [], (skip text).tail)
      else (fields fuel (skip text)).map fun p => (.object p.1, p.2)
    else if c = 0x6e then word "null" .null (c :: text)
    else if c = 0x74 then word "true" (.bool true) (c :: text)
    else if c = 0x66 then word "false" (.bool false) (c :: text)
    else (number ofInt ((c :: text).takeWhile numeral)).map fun d =>
      (d, (c :: text).dropWhile numeral)

/-- The items of an array, of which there is one. -/
def items : Nat → PyStr → Option (List JsonDoc × PyStr)
  | 0, _ => none
  | fuel + 1, text => do
    let (d, text) ← value fuel text
    match skip text with
    | [] => none
    | c :: text =>
      if c = 0x2c then (items fuel (skip text)).map fun p => (d :: p.1, p.2)
      else if c = 0x5d then some ([d], text)
      else none

/-- The fields of an object, of which there is one. -/
def fields : Nat → PyStr → Option (List (List StrItem × JsonDoc) × PyStr)
  | 0, _ => none
  | _, [] => none
  | fuel + 1, c :: text => do
    if c ≠ 0x22 then none
    let (key, text) ← chars text
    let text := skip text
    if text.head? ≠ some 0x3a then none
    let (d, text) ← value fuel (skip text.tail)
    match skip text with
    | [] => none
    | c :: text =>
      if c = 0x2c then (fields fuel (skip text)).map fun p => ((key, d) :: p.1, p.2)
      else if c = 0x7d then some ([(key, d)], text)
      else none

end

/-- The document of a text. -/
def parse (text : PyStr) : Option JsonDoc := do
  let (d, rest) ← value ofInt (text.length + 1) (skip text)
  if (skip rest).isEmpty then some d else none

/-! ## What is written is read -/

mutual

/-- A document that JSON has, the floats of which are read as what they are. -/
def Printable : JsonDoc → Prop
  | .null => True
  | .bool _ => True
  | .int _ => True
  | .float value => number ofInt (print value) = some (.float value)
  | .infinity _ => False
  | .nan => False
  | .str items => items.all writable = true
  | .array xs => PrintableItems xs
  | .object fields => PrintableFields fields

def PrintableItems : List JsonDoc → Prop
  | [] => True
  | d :: ds => Printable d ∧ PrintableItems ds

def PrintableFields : List (List StrItem × JsonDoc) → Prop
  | [] => True
  | (key, d) :: fields => (key.all writable = true ∧ Printable d) ∧ PrintableFields fields

end

mutual

/-- What is left of a document once it is read. -/
def plain : JsonDoc → JsonDoc
  | .int i => ofInt i
  | .str items => .str (items.map plainItem)
  | .array xs => .array (plainItems xs)
  | .object fields => .object (plainFields fields)
  | .null => .null
  | .bool b => .bool b
  | .float value => .float value
  | .infinity negative => .infinity negative
  | .nan => .nan

def plainItems : List JsonDoc → List JsonDoc
  | [] => []
  | d :: ds => plain d :: plainItems ds

def plainFields : List (List StrItem × JsonDoc) → List (List StrItem × JsonDoc)
  | [] => []
  | (key, d) :: fields => (key.map plainItem, plain d) :: plainFields fields

end

/-- No number goes on in a text. -/
def ends (rest : PyStr) : Bool := rest.head?.all fun c => !numeral c

/-- `skip` stops at what is not blank. -/
theorem skip_cons {c : CodePoint} (h : blank c = false) (text : PyStr) :
    skip (c :: text) = c :: text := by
  rw [skip, List.dropWhile_cons, h]
  rfl

variable {ofInt print}

/-- `value` reads a number up to what ends one. -/
theorem value_number {token : PyStr} {d : JsonDoc} (h : number ofInt token = some d) (fuel : Nat)
    {rest : PyStr} (hrest : ends rest = true) :
    value ofInt (fuel + 1) (token ++ rest) = some (d, rest) := by
  obtain ⟨hne, hall⟩ := number_numeral ofInt h
  obtain ⟨htake, hdrop⟩ := span_of_all hall hrest
  cases token with
  | nil => exact absurd rfl hne
  | cons c text =>
    -- What starts any other value is not of a number
    have hother : ∀ other : CodePoint, numeral other = false → c ≠ other := by
      rintro other hother rfl
      rw [List.all_cons, hother] at hall
      cases hall
    rw [List.cons_append] at htake hdrop ⊢
    rw [value, if_neg (hother _ (by decide)), if_neg (hother _ (by decide)),
      if_neg (hother _ (by decide)), if_neg (hother _ (by decide)), if_neg (hother _ (by decide)),
      if_neg (hother _ (by decide)), htake, hdrop, h]
    rfl

/-- A string stands between quotes. -/
theorem stringText_append (items : List StrItem) (rest : PyStr) :
    stringText items ++ rest = 0x22 :: (items.flatMap itemText ++ 0x22 :: rest) := by
  simp [stringText]

/-- What `docText` writes begins with no blank and with no closing bracket. -/
theorem docText_front {d : JsonDoc} (h : Printable ofInt print d) :
    ∃ c text, docText print d = c :: text ∧ blank c = false ∧ c ≠ 0x5d := by
  -- A number begins with a sign or a digit
  have hnumber {token : PyStr} {d : JsonDoc} (h : number ofInt token = some d) :
      ∃ c text, token = c :: text ∧ blank c = false ∧ c ≠ 0x5d := by
    obtain ⟨hne, hall⟩ := number_numeral ofInt h
    cases token with
    | nil => exact absurd rfl hne
    | cons c text =>
      have hc : numeral c = true := by
        rw [List.all_cons, Bool.and_eq_true] at hall
        exact hall.1
      have hother : ∀ other : CodePoint, numeral other = false → c ≠ other := by
        rintro other hother rfl
        rw [hc] at hother
        cases hother
      refine ⟨c, text, rfl, ?_, hother _ (by decide)⟩
      simp [blank, hother 0x20 (by decide), hother 0x09 (by decide), hother 0x0a (by decide),
        hother 0x0d (by decide)]
  -- Every other document begins with a letter, a quote or an opening bracket
  cases d with
  | null => exact ⟨_, _, rfl, by decide, by decide⟩
  | bool b => cases b <;> exact ⟨_, _, rfl, by decide, by decide⟩
  | int i => exact hnumber (number_intText ofInt i)
  | float value => exact hnumber (by rwa [Printable] at h)
  | infinity negative => exact absurd h (by simp [Printable])
  | nan => exact absurd h (by simp [Printable])
  | str items => exact ⟨_, _, rfl, by decide, by decide⟩
  | array xs => exact ⟨0x5b, itemsText print xs ++ [0x5d], by rw [docText], by decide, by decide⟩
  | object fields =>
    exact ⟨0x7b, fieldsText print fields ++ [0x7d], by rw [docText], by decide, by decide⟩

variable (ofInt print) in
/-- A document at the front of a text is read. -/
def Reads (d : JsonDoc) : Prop :=
  Printable ofInt print d → ∀ fuel rest, (docText print d).length ≤ fuel → ends rest = true →
    value ofInt fuel (docText print d ++ rest) = some (plain ofInt d, rest)

/-- `skip` finds no blank in front of what `docText` writes. -/
theorem skip_docText {d : JsonDoc} (h : Printable ofInt print d) (rest : PyStr) :
    skip (docText print d ++ rest) = docText print d ++ rest := by
  obtain ⟨c, text, htext, hblank, -⟩ := docText_front h
  rw [htext, List.cons_append, skip_cons hblank]

/-- `skip` finds no blank in front of the items of an array. -/
theorem skip_itemsText {d : JsonDoc} (h : Printable ofInt print d) (ds : List JsonDoc)
    (rest : PyStr) : skip (itemsText print (d :: ds) ++ rest) = itemsText print (d :: ds) ++ rest := by
  rw [itemsText, List.append_assoc]
  exact skip_docText h _

/-- `items` reads back what `itemsText` writes. -/
theorem items_itemsText {ds : List JsonDoc} (hreads : ∀ d ∈ ds, Reads ofInt print d)
    (h : PrintableItems ofInt print ds) (hne : ds ≠ []) {fuel : Nat}
    (hfuel : (itemsText print ds).length < fuel) (rest : PyStr) :
    items ofInt fuel (itemsText print ds ++ 0x5d :: rest) = some (plainItems ofInt ds, rest) := by
  -- Induction on the items, with one unit of fuel for each
  induction ds generalizing fuel with
  | nil => exact absurd rfl hne
  | cons d ds ih =>
    obtain ⟨hd, hds⟩ := h
    cases fuel with
    | zero => exact absurd hfuel (Nat.not_lt_zero _)
    | succ fuel =>
      rw [itemsText, List.length_append] at hfuel
      have hfirst := hreads d List.mem_cons_self hd fuel
      cases ds with
      | nil =>
        rw [itemsText, List.append_assoc, items, hfirst _ (by omega) rfl]
        rfl
      | cons d' ds =>
        have hlength : (itemsText print (d' :: ds)).length < fuel := by
          rw [List.isEmpty_cons, if_neg Bool.false_ne_true, List.length_cons] at hfuel
          omega
        have hrest := ih (fun d'' h'' => hreads d'' (List.mem_cons_of_mem d h'')) hds
          (List.cons_ne_nil _ _) hlength
        rw [itemsText, List.isEmpty_cons, if_neg Bool.false_ne_true, List.append_assoc,
          List.cons_append, items, hfirst _ (by omega) rfl]
        -- After the comma comes another item
        have hcomma := skip_cons (c := 0x2c) (by decide) (itemsText print (d' :: ds) ++ 0x5d :: rest)
        simp only [bind, Option.bind, hcomma, if_true, skip_itemsText hds.1, hrest]
        rfl

/-- `skip` finds no blank in front of the fields of an object. -/
theorem skip_fieldsText (f : List StrItem × JsonDoc) (fs : List (List StrItem × JsonDoc))
    (rest : PyStr) : skip (fieldsText print (f :: fs) ++ rest) = fieldsText print (f :: fs) ++ rest := by
  rw [fieldsText, List.append_assoc, stringText_append, skip_cons (by decide)]

/-- `fields` reads a field and goes on with what follows its value. -/
theorem fields_field {key : List StrItem} {d : JsonDoc} (hkey : key.all writable = true)
    (hd : Printable ofInt print d) (fuel : Nat) (text : PyStr) :
    fields ofInt (fuel + 1) (stringText key ++ 0x3a :: (docText print d ++ text)) = (do
      let (d, text) ← value ofInt fuel (docText print d ++ text)
      match skip text with
      | [] => none
      | c :: text =>
        if c = 0x2c then
          (fields ofInt fuel (skip text)).map fun p => ((key.map plainItem, d) :: p.1, p.2)
        else if c = 0x7d then some ([(key.map plainItem, d)], text)
        else none) := by
  have hcolon (text : PyStr) : skip (0x3a :: text) = 0x3a :: text := skip_cons (by decide) text
  rw [stringText_append, fields]
  simp only [ne_eq, not_true_eq_false, if_false, chars_text hkey, bind, Option.bind, hcolon,
    List.head?_cons, List.tail_cons, skip_docText hd]

/-- `fields` reads back what `fieldsText` writes. -/
theorem fields_fieldsText {fs : List (List StrItem × JsonDoc)}
    (hreads : ∀ f ∈ fs, Reads ofInt print f.2) (h : PrintableFields ofInt print fs) (hne : fs ≠ [])
    {fuel : Nat} (hfuel : (fieldsText print fs).length < fuel) (rest : PyStr) :
    fields ofInt fuel (fieldsText print fs ++ 0x7d :: rest) = some (plainFields ofInt fs, rest) := by
  -- Induction on the fields, with one unit of fuel for each
  induction fs generalizing fuel with
  | nil => exact absurd rfl hne
  | cons f fs ih =>
    obtain ⟨key, d⟩ := f
    obtain ⟨⟨hkey, hd⟩, hfs⟩ := h
    cases fuel with
    | zero => exact absurd hfuel (Nat.not_lt_zero _)
    | succ fuel =>
      rw [fieldsText, List.length_append, List.length_cons, List.length_append] at hfuel
      have hfirst (text : PyStr) (hends : ends text = true) :
          value ofInt fuel (docText print d ++ text) = some (plain ofInt d, text) := by
        have hlength : (docText print d).length ≤ fuel := by omega
        exact hreads (key, d) List.mem_cons_self hd fuel text hlength hends
      cases fs with
      | nil =>
        rw [fieldsText, List.append_assoc, List.cons_append, List.append_assoc,
          fields_field hkey hd, hfirst _ rfl]
        rfl
      | cons f' fs =>
        have hlength : (fieldsText print (f' :: fs)).length < fuel := by
          rw [List.isEmpty_cons, if_neg Bool.false_ne_true, List.length_cons] at hfuel
          omega
        have hrest := ih (fun f'' h'' => hreads f'' (List.mem_cons_of_mem _ h'')) hfs
          (List.cons_ne_nil _ _) hlength
        rw [fieldsText, List.isEmpty_cons, if_neg Bool.false_ne_true, List.append_assoc,
          List.cons_append, List.append_assoc, List.cons_append, fields_field hkey hd,
          hfirst _ rfl]
        -- After the comma comes another field
        have hcomma := skip_cons (c := 0x2c) (by decide) (fieldsText print (f' :: fs) ++ 0x7d :: rest)
        simp only [bind, Option.bind, hcomma, if_true, skip_fieldsText, hrest]
        rfl

/-- `word` reads its literal and gives back the rest. -/
theorem word_append (name : String) (doc : JsonDoc) (rest : PyStr) :
    word name doc (.ofString name ++ rest) = some (doc, rest) := by
  have hlength : (PyStr.ofString name).length = name.length := by
    rw [PyStr.ofString, List.length_map, String.length_toList]
  have hprefix : (PyStr.ofString name).isPrefixOf (PyStr.ofString name ++ rest) = true :=
    List.isPrefixOf_iff_prefix.mpr (List.prefix_append _ _)
  rw [word, if_pos hprefix, ← hlength, List.drop_left]

/-- `value` reads back what `docText` writes. -/
theorem value_docText (d : JsonDoc) : Reads ofInt print d := by
  -- Structural induction; where there is no fuel, no text is short enough
  induction d using JsonDoc.ind with
  | null =>
    rintro - (_ | fuel) rest hfuel -
    · cases hfuel
    · exact word_append "null" .null rest
  | bool b =>
    rintro - (_ | fuel) rest hfuel -
    · cases b <;> cases hfuel
    · cases b with
      | true => exact word_append "true" (.bool true) rest
      | false => exact word_append "false" (.bool false) rest
  | int i =>
    rintro h (_ | fuel) rest hfuel hends
    · obtain ⟨c, text, htext, -⟩ := docText_front h
      rw [htext] at hfuel
      cases hfuel
    · exact value_number (number_intText ofInt i) fuel hends
  | float x =>
    rintro h (_ | fuel) rest hfuel hends
    · obtain ⟨c, text, htext, -⟩ := docText_front h
      rw [htext] at hfuel
      -- A text in quotes is read up to its closing quote
      cases hfuel
    · rw [Printable] at h
      exact value_number h fuel hends
  | infinity negative =>
    intro h
    exact absurd h (by simp [Printable])
  | nan =>
    intro h
    exact absurd h (by simp [Printable])
  | str items =>
    rintro h (_ | fuel) rest hfuel -
    · cases hfuel
    · rw [Printable] at h
      rw [docText, stringText_append, value, if_pos rfl, chars_text h]
      rfl
  | array xs ih =>
    rintro h (_ | fuel) rest hfuel -
    · rw [docText] at hfuel
      cases hfuel
    · rw [Printable] at h
      rw [docText, List.length_cons, List.length_append, List.length_singleton] at hfuel
      rw [docText, List.cons_append, List.append_assoc, List.singleton_append, value,
        if_neg (by decide), if_pos rfl]
      cases xs with
      | nil => rfl
      | cons x xs =>
        obtain ⟨c, text, htext, -, hc⟩ := docText_front h.1
        -- An array with an item does not close at once
        have hhead : (itemsText print (x :: xs) ++ 0x5d :: rest).head? ≠ some 0x5d := by
          rw [itemsText, htext]
          simpa using hc
        rw [skip_itemsText h.1, if_neg hhead,
          items_itemsText ih h (List.cons_ne_nil _ _) (by omega)]
        rfl
  | object fs ih =>
    rintro h (_ | fuel) rest hfuel -
    · rw [docText] at hfuel
      cases hfuel
    · rw [Printable] at h
      rw [docText, List.length_cons, List.length_append, List.length_singleton] at hfuel
      rw [docText, List.cons_append, List.append_assoc, List.singleton_append, value,
        if_neg (by decide), if_neg (by decide), if_pos rfl]
      cases fs with
      | nil => rfl
      | cons f fs =>
        -- An object with a field does not close at once
        have hhead : (fieldsText print (f :: fs) ++ 0x7d :: rest).head? ≠ some 0x7d := by
          rw [fieldsText, List.append_assoc, stringText_append, List.head?_cons, ne_eq,
            Option.some.injEq]
          decide
        rw [skip_fieldsText, if_neg hhead,
          fields_fieldsText ih h (List.cons_ne_nil _ _) (by omega)]
        rfl

/-- What is written of a document is read as the document. -/
theorem parse_docText {d : JsonDoc} (h : Printable ofInt print d) :
    parse ofInt (docText print d) = some (plain ofInt d) := by
  have hvalue := value_docText d h ((docText print d).length + 1) [] (Nat.le_succ _) rfl
  have hskip := skip_docText h []
  rw [List.append_nil] at hvalue hskip
  rw [parse, hskip, hvalue]
  rfl

/-- A character that a value starts with. -/
def starts (c : CodePoint) : Bool := numeral c || c.val ∈ [0x22, 0x5b, 0x7b, 0x6e, 0x74, 0x66]

/-- A text that starts with what no value starts with is no JSON. -/
theorem parse_none {text rest : PyStr} {c : CodePoint} (hskip : skip text = c :: rest)
    (hc : starts c = false) : parse ofInt text = none := by
  rw [starts, Bool.or_eq_false_iff] at hc
  obtain ⟨hnumeral, hstart⟩ := hc
  have hne (code : Nat) (hcode : code ∈ [0x22, 0x5b, 0x7b, 0x6e, 0x74, 0x66]) : c.val ≠ code := by
    rintro rfl
    rw [decide_eq_true hcode] at hstart
    cases hstart
  have hother (other : CodePoint) (hval : other.val ∈ [0x22, 0x5b, 0x7b, 0x6e, 0x74, 0x66]) :
      c ≠ other := fun heq => hne other.val hval (congrArg Fin.val heq)
  rw [parse, hskip, value, if_neg (hother _ (by decide)), if_neg (hother _ (by decide)),
    if_neg (hother _ (by decide)), if_neg (hother _ (by decide)), if_neg (hother _ (by decide)),
    if_neg (hother _ (by decide)), List.takeWhile_cons, hnumeral]
  rfl

end JsonText

end PyJson
