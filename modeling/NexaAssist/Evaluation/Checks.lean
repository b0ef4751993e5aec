import NexaAssist.Evaluation.Cases
import NexaAssist.Evaluation.Results
import NexaAssist.ForStd.PyRepr
import NexaAssist.ForStd.PyText

/-!
# What "correct" means for one case

A check judges an output. It is not to raise, and may.
-/

namespace NexaAssist

open PyJson

/-- How a check ends. -/
inductive CheckEnding
  | returned (result : CheckResult)
  | raised (name : PyStr) (isException : Bool)

/-- A verdict on one case's output. `name` is what `getattr` finds. -/
structure Check (Output : Type) where
  name : Option PyStr
  evaluate : EvalCase → Output → CheckEnding

/-! ## The shipped checks -/

/-- An output: a dictionary, or an object with attributes. -/
inductive EvalOutput
  | dict (entries : List (PyKey × PyValue))
  | object (attributes : PyDict PyStr PyValue)

/-- `_read`. -/
def EvalOutput.read (output : EvalOutput) (field : PyStr) : PyValue :=
  match output with
  | .dict entries => (dictLookup entries (.str field)).getD .none
  | .object attributes => (PyDict.get field attributes).getD .none

/-- `==`. A NaN is not equal to itself, unless a container compares it. -/
def valueEq : PyValue → PyValue → Bool
  | .float (.nan _), _ => false
  | actual, expected => pyEq actual expected

/-- What the interpreter makes of values and texts. -/
structure Printer where
  printable : CodePoint → Bool
  float : Rat → PyStr
  table : LowerTable

section Shipped

variable (printer : Printer)

/-- `f"{value!r}"`. -/
def Printer.repr (value : PyValue) : PyStr := reprValue printer.printable printer.float value

/-- `str(value or "").lower()`. -/
def Printer.lowered (value : PyValue) : PyStr :=
  printer.table.lower <| match value with
    | .none | .bool false | .int 0 | .float (.finite 0) | .str [] | .list [] | .tuple []
    | .dict [] => []
    | value => strValue printer.printable printer.float value

def failedCheck (name detail : PyStr) : CheckEnding :=
  .returned { check := name, outcome := .failed, detail := some detail }

def passedCheck (name : PyStr) : CheckEnding :=
  .returned { check := name, outcome := .passed, detail := none }

/-- The named output field equals the case's expectation. -/
def fieldEquals (field : Text) (expectation : Option Text) : Check EvalOutput where
  name := some (lit "field_equals:" ++ field.val)
  evaluate c output :=
    let name := lit "field_equals:" ++ field.val
    let expectation := expectation.getD field
    match PyDict.get expectation.val c.expectations with
    | none => failedCheck name (lit "case declares no " ++ reprStr printer.printable expectation.val)
    | some expected =>
      let actual := output.read field.val
      if valueEq actual expected then passedCheck name
      else failedCheck name (lit "expected " ++ printer.repr expected ++ lit ", got " ++
        printer.repr actual)

/-- The named output field is one of an allowed set. -/
def fieldIn (field : PyStr) (allowed : { values : List PyValue // values ≠ [] }) :
    Check EvalOutput where
  name := some (lit "field_in:" ++ field)
  evaluate _ output :=
    let name := lit "field_in:" ++ field
    let actual := output.read field
    if allowed.val.any (pyEq actual) then passedCheck name
    else failedCheck name (printer.repr actual ++ lit " not in " ++ printer.repr (.list allowed.val))

/-- What iterating over a value gives, if it can be. -/
def iterate : PyValue → Option (List PyValue)
  | .list values => some values
  | .tuple values => some values
  | .str text => some (text.map fun c => .str [c])
  | .dict entries => some (entries.map fun entry => match entry.1 with
    | .str text => .str text
    | .num value _ => .float value
    | .none => .none
    | .other object => .object (toString object))
  | _ => none

/-- `[term for term in terms if (term.lower() in text) is present]`. -/
def termsFound (text : PyStr) (present : Bool) : List PyValue → Except PyStr (List PyValue)
  | [] => .ok []
  | .str term :: terms => do
    let found ← termsFound text present terms
    .ok (if PyStr.isIn (printer.table.lower term) text = present then .str term :: found else found)
  | _ :: _ => .error (lit "AttributeError")

/-- The terms of a case that are in a field's text, or are not. -/
def termsOf (expectation field : PyStr) (present : Bool) (c : EvalCase) (output : EvalOutput) :
    Except PyStr (List PyValue) :=
  match iterate ((PyDict.get expectation c.expectations).getD (.tuple [])) with
  | none => .error (lit "TypeError")
  | some terms => termsFound printer (printer.lowered (output.read field)) present terms

/-- A check that finds no terms. -/
def noTerms (name verb expectation field : PyStr) (present : Bool) : Check EvalOutput where
  name := some name
  evaluate c output :=
    match termsOf printer expectation field present c output with
    | .error exception => .raised exception true
    | .ok [] => passedCheck name
    | .ok terms => failedCheck name (verb ++ printer.repr (.list terms))

/-- The named text field contains every required substring. -/
def textContainsAll (field : PyStr) : Check EvalOutput :=
  noTerms printer (lit "contains_all:" ++ field) (lit "missing ") (lit "contains") field false

/-- The named text field contains none of the forbidden substrings. -/
def textContainsNone (field : PyStr) : Check EvalOutput :=
  noTerms printer (lit "contains_none:" ++ field) (lit "contained ") (lit "forbidden") field true

/-- The named field is present and non-empty. -/
def fieldIsNotEmpty (field : PyStr) : Check EvalOutput where
  name := some (lit "not_empty:" ++ field)
  evaluate _ output :=
    let name := lit "not_empty:" ++ field
    match output.read field with
    | .none | .str [] | .list [] | .tuple [] | .dict [] => failedCheck name (lit "field was empty")
    | _ => passedCheck name

end Shipped

end NexaAssist
