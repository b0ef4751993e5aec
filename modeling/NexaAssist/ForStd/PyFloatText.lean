import NexaAssist.ForStd.PyJson
import NexaAssist.ForStd.PyText
import NexaAssist.ForStd.Rounding

/-!
# `float` of a text

What the text of a number says, and the float it is read as: the nearest one there is, or
infinity where that is out of range.
-/

namespace PyJson

/-! ## What a text says -/

/-- What the text of a number says. -/
inductive Numeral
  | decimal (value : Rat)
  | inf (negative : Bool)
  | nan
  deriving DecidableEq, Repr

/-- The decimal digits of Unicode, each with its value. -/
structure DecimalTable where
  decimal : CodePoint → Option (Fin 10)

/-- A table that knows no digits past ASCII. -/
def DecimalTable.asciiOnly : DecimalTable where
  decimal _ := none

namespace Numeral

/-- White space and digits past ASCII are replaced by ASCII ones. Where neither stands the text
    ends in a character that no number has. -/
def toAscii (table : DecimalTable) : PyStr → PyStr
  | [] => []
  | c :: text =>
    if c.val < 127 then c :: toAscii table text
    else if isSpace c then 0x20 :: toAscii table text
    else match table.decimal c with
      | some digit => Fin.ofNat 0x110000 (0x30 + digit.val) :: toAscii table text
      | none => [0x3f]

/-- White space of ASCII. -/
def asciiSpace (c : CodePoint) : Bool := (0x09 ≤ c.val && c.val ≤ 0x0d) || c.val = 0x20

def stripAscii (text : PyStr) : PyStr :=
  ((text.dropWhile asciiSpace).reverse.dropWhile asciiSpace).reverse

def isDigit (c : CodePoint) : Bool := 0x30 ≤ c.val && c.val ≤ 0x39

/-- Takes the underscores away, each of which has a digit before it and one after it. -/
def dropUnderscores (afterDigit : Bool) : PyStr → Option PyStr
  | [] => some []
  | c :: text =>
    if c.val = 0x5f then
      if afterDigit && (text.head?.any isDigit) then dropUnderscores false text else none
    else (dropUnderscores (isDigit c) text).map (c :: ·)

/-- The number digits stand for. -/
def ofDigits (digits : PyStr) : Nat := digits.foldl (fun n c => 10 * n + (c.val - 0x30)) 0

/-- A sign, and the text after it. -/
def sign : PyStr → Bool × PyStr
  | c :: text =>
    if c.val = 0x2d then (true, text) else if c.val = 0x2b then (false, text) else (false, c :: text)
  | [] => (false, [])

/-- The exponent, which is all that is left of the text. -/
def exponent : PyStr → Option Int
  | [] => some 0
  | c :: text =>
    let (negative, digits) := sign text
    if (c.val = 0x65 || c.val = 0x45) && !digits.isEmpty && digits.all isDigit then
      some (if negative then -ofDigits digits else ofDigits digits)
    else none

/-- Digits, with a point before, among or after them, and an exponent. -/
def magnitude (text : PyStr) : Option Rat :=
  let whole := text.takeWhile isDigit
  let rest := text.dropWhile isDigit
  let (fraction, rest) := match rest with
    | c :: after =>
      if c.val = 0x2e then (after.takeWhile isDigit, after.dropWhile isDigit) else ([], rest)
    | [] => ([], [])
  if whole.isEmpty && fraction.isEmpty then none
  else (exponent rest).map fun e : Int =>
    (ofDigits (whole ++ fraction) : Rat) * 10 ^ (e - (fraction.length : Int))

/-- A number without white space or underscores. -/
def ofPlain (text : PyStr) : Option Numeral :=
  let (negative, unsigned) := sign text
  match magnitude unsigned with
  | some value => some (.decimal (if negative then -value else value))
  | none =>
    let word := unsigned.map lowerAscii
    if word = PyStr.ofString "inf" || word = PyStr.ofString "infinity" then some (.inf negative)
    else if word = PyStr.ofString "nan" then some .nan
    else none

/-- What a text says, where it is the text of a number. -/
def ofText (table : DecimalTable) (text : PyStr) : Option Numeral :=
  (dropUnderscores false (stripAscii (toAscii table text))).bind ofPlain

end Numeral

/-! ## The float -/

/-- The nearest float is out of range. -/
def outOfRange (value : Rat) : Prop := 2 ^ 1024 ≤ |Rounding.nearest value|

instance (value : Rat) : Decidable (outOfRange value) :=
  inferInstanceAs (Decidable (2 ^ 1024 ≤ |Rounding.nearest value|))

/-- The float a number is read as. -/
def Numeral.toFloat : Numeral → PyFloat
  | .decimal value =>
    if outOfRange value then .inf (value < 0) else .finite (Rounding.nearest value)
  | .inf negative => .inf negative
  | .nan => .nan 1

/-- `float(text)`. Nothing is a `ValueError`. -/
def pyFloat (table : DecimalTable) (text : PyStr) : Option PyFloat :=
  (Numeral.ofText table text).map Numeral.toFloat

example : Numeral.ofText .asciiOnly (.ofString " 1_0.5e-1\n") = some (.decimal (21 / 20)) := by
  decide +kernel

end PyJson
