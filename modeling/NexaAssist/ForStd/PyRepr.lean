import NexaAssist.ForStd.PyJson
import NexaAssist.ForStd.PyText

/-!
# `repr` of a Python value

What `f"{text!r}"` writes, and `f"{value}"` of a container. Which characters past ASCII
are printable is a table of the Unicode database, and how a float is spelled one of the
number formatter, so they are parameters.
-/

namespace PyJson

/-- A lower-case hexadecimal digit. -/
def hexDigit (n : Nat) : CodePoint :=
  Fin.ofNat 0x110000 (if n < 10 then 0x30 + n else 0x61 + (n - 10))

/-- `n` in hexadecimal, in exactly `width` digits. -/
def hexDigits (width n : Nat) : PyStr :=
  match width with
  | 0 => []
  | width + 1 => hexDigits width (n / 16) ++ [hexDigit (n % 16)]

/-- One character of a `repr`, between two `quote`s. -/
def reprChar (printable : CodePoint → Bool) (quote c : CodePoint) : PyStr :=
  if c = quote ∨ c.val = 0x5c then [0x5c, c]
  else if c.val = 0x09 then .ofString "\\t"
  else if c.val = 0x0a then .ofString "\\n"
  else if c.val = 0x0d then .ofString "\\r"
  else if c.val < 0x20 ∨ c.val = 0x7f then .ofString "\\x" ++ hexDigits 2 c.val
  else if c.val < 0x7f then [c]
  else if printable c then [c]
  else if c.val < 0x100 then .ofString "\\x" ++ hexDigits 2 c.val
  else if c.val < 0x10000 then .ofString "\\u" ++ hexDigits 4 c.val
  else .ofString "\\U" ++ hexDigits 8 c.val

/-- `repr(s)`: in single quotes, unless only they occur in it. -/
def reprStr (printable : CodePoint → Bool) (s : PyStr) : PyStr :=
  let quote : CodePoint := if s.contains 0x27 && !s.contains 0x22 then 0x22 else 0x27
  [quote] ++ s.flatMap (reprChar printable quote) ++ [quote]

example : reprStr (fun _ => false) (.ofString "it's") = .ofString "\"it's\"" := by decide

/-- `repr` of a float. -/
def reprFloat (float : Rat → PyStr) : PyFloat → PyStr
  | .finite value => float value
  | .inf negative => .ofString (if negative then "-inf" else "inf")
  | .nan _ => .ofString "nan"

/-- `repr` of a key. The name of an object stands for its `repr`. -/
def reprKey (printable : CodePoint → Bool) : PyKey → PyStr
  | .str s => reprStr printable s
  | .num _ text => text
  | .none => .ofString "None"
  | .other object => .ofString (toString object)

section Values

variable (printable : CodePoint → Bool) (float : Rat → PyStr)

mutual

/-- `repr(value)`. The name of an object stands for its `repr`. -/
def reprValue : PyValue → PyStr
  | .none => .ofString "None"
  | .bool b => .ofString (if b then "True" else "False")
  | .int i => .ofString (toString i)
  | .float f => reprFloat float f
  | .str s => reprStr printable s
  | .list xs => .ofString "[" ++ PyStr.join (.ofString ", ") (reprList xs) ++ .ofString "]"
  | .tuple [x] => .ofString "(" ++ reprValue x ++ .ofString ",)"
  | .tuple xs => .ofString "(" ++ PyStr.join (.ofString ", ") (reprList xs) ++ .ofString ")"
  | .dict es =>
    .ofString "\x7b" ++ PyStr.join (.ofString ", ") (reprEntries es) ++ .ofString "\x7d"
  | .object name => .ofString name

def reprList : List PyValue → List PyStr
  | [] => []
  | x :: xs => reprValue x :: reprList xs

def reprEntries : List (PyKey × PyValue) → List PyStr
  | [] => []
  | (k, v) :: es => (reprKey printable k ++ .ofString ": " ++ reprValue v) :: reprEntries es

end

/-- `str(value)`. -/
def strValue : PyValue → PyStr
  | .str s => s
  | value => reprValue printable float value

end Values

/-! ## Texts without quotes and escapes -/

/-- A text of printable ASCII without quotes and backslashes is only quoted. -/
theorem reprStr_of_plain {printable : CodePoint → Bool} {s : PyStr}
    (h : ∀ c ∈ s, 0x20 ≤ c.val ∧ c.val < 0x7f ∧ c.val ≠ 0x27 ∧ c.val ≠ 0x5c) :
    reprStr printable s = [0x27] ++ s ++ [0x27] := by
  have hquote : s.contains 0x27 = false := by
    rw [List.contains_eq_mem, decide_eq_false_iff_not]
    intro hmem
    exact (h _ hmem).2.2.1 rfl
  have hchars : s.flatMap (reprChar printable 0x27) = s := by
    induction s with
    | nil => rfl
    | cons c s ih =>
      obtain ⟨hlow, hhigh, hnoquote, hnoslash⟩ := h c List.mem_cons_self
      have hplain : reprChar printable 0x27 c = [c] := by
        unfold reprChar
        have hne : c ≠ 0x27 := fun heq => hnoquote (congrArg Fin.val heq)
        rw [if_neg (by simp [hne, hnoslash]), if_neg (by omega), if_neg (by omega),
          if_neg (by omega), if_neg (by omega), if_pos hhigh]
      have hrest : s.contains 0x27 = false := by
        rw [List.contains_cons, Bool.or_eq_false_iff] at hquote
        exact hquote.2
      rw [List.flatMap_cons, hplain, ih (fun c hc => h c (List.mem_cons_of_mem _ hc)) hrest]
      rfl
  unfold reprStr
  simp only [hquote, Bool.false_and, Bool.false_eq_true, if_false, hchars]

end PyJson
