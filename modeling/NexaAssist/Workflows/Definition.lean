import Mathlib.Data.List.Lex
import Mathlib.Data.List.Sort
import Mathlib.Order.Fin.Basic
import NexaAssist.ForStd.PyDict
import NexaAssist.ForStd.PyRepr
import NexaAssist.ForStd.PyText
import NexaAssist.Schemas.Types

/-!
# Workflow definitions

An ordered list of tool calls, whose parameters may refer to earlier results. A definition is
inert: it is read and validated without running anything.
-/

namespace NexaAssist

open PyJson

def MAX_STEPS : Nat := 20

/-! ## Names and references -/

def isLower (c : CodePoint) : Bool := 0x61 ≤ c.val && c.val ≤ 0x7a

/-- `[a-z0-9_]`. -/
def isNameChar (c : CodePoint) : Bool :=
  isLower c || (0x30 ≤ c.val && c.val ≤ 0x39) || c.val = 0x5f

/-- `[a-z][a-z0-9_]*`, as the whole of a text. -/
def isName : PyStr → Bool
  | [] => false
  | c :: text => isLower c && text.all isNameChar

/-- What `$` matches before: nothing, or a last line break. -/
def atEnd (text : PyStr) : Bool := text = [] || text = [0x0a]

/-- `NAME_PATTERN.match`. -/
def matchesName (text : PyStr) : Bool :=
  let name := text.takeWhile isNameChar
  isName name && atEnd (text.drop name.length)

/-- What comes after a literal at the beginning of a text. -/
def afterLit (literal : PyStr) (text : PyStr) : Option PyStr :=
  if literal.isPrefixOf text then some (text.drop literal.length) else none

/-- `REFERENCE.match`, and its group. -/
def matchReference (text : PyStr) : Option PyStr := do
  let text ← afterLit (lit "\x7b\x7b") text
  let text ← afterLit (lit "steps.") (text.dropWhile isSpace)
  let name := text.takeWhile isNameChar
  let text ← afterLit (lit ".output") (text.drop name.length)
  let text ← afterLit (lit "\x7d\x7d") (text.dropWhile isSpace)
  if isName name && atEnd text then some name else none

/-- `reference_to`. -/
def referenceTo (stepId : PyStr) : PyStr :=
  lit "\x7b\x7b steps." ++ stepId ++ lit ".output \x7d\x7d"

/-- The step id a value refers to. -/
def referencedStep : PyValue → Option PyStr
  | .str text => matchReference text
  | _ => none

/-! ## Steps -/

/-- Why a definition is refused. -/
inductive DefinitionFault
  | stepId (id : PyStr)
  | toolName (tool : PyStr)
  | workflowName (name : PyStr)
  | inputName (name : PyStr)
  | duplicate (id : PyStr)
  | unknown (id : PyStr) (references : List PyStr)
  deriving DecidableEq

/-- The text of the `ValueError`. -/
def DefinitionFault.message (printable : CodePoint → Bool) : DefinitionFault → PyStr
  | .stepId id => lit "Step id " ++ reprStr printable id ++
      lit " must be lowercase alphanumeric with underscores."
  | .toolName tool => lit "Tool name " ++ reprStr printable tool ++ lit " is not a valid tool name."
  | .workflowName name =>
    lit "Workflow name " ++ reprStr printable name ++ lit " must be a valid identifier."
  | .inputName name =>
    lit "Input name " ++ reprStr printable name ++ lit " must be a valid identifier."
  | .duplicate id => lit "Duplicate step id " ++ reprStr printable id ++ lit "."
  | .unknown id references =>
    lit "Step " ++ reprStr printable id ++ lit " references [" ++
      PyStr.join (lit ", ") (references.map (reprStr printable)) ++
      lit "], which do not appear before it."

/-- One tool call in a workflow. -/
structure WorkflowStep where
  id : PyStr
  tool : PyStr
  params : PyDict PyStr PyValue
  optional : Bool

namespace WorkflowStep

/-- `_validate_names`. -/
def validateNames (step : WorkflowStep) : Except DefinitionFault Unit :=
  if !matchesName step.id then .error (.stepId step.id)
  else if !matchesName step.tool then .error (.toolName step.tool)
  else .ok ()

/-- Step ids this step's parameters depend on. -/
def references (step : WorkflowStep) : List PyStr :=
  step.params.filterMap fun entry => referencedStep entry.2

end WorkflowStep

/-! ## Workflows -/

/-- The references of a step that are to none of the names seen before it, sorted. -/
def WorkflowStep.unknown (step : WorkflowStep) (seen : List PyStr) : List PyStr :=
  ((step.references.filter (· ∉ seen)).dedup).insertionSort (· ≤ ·)

/-- The loop of `_validate` over the steps. -/
def validateSteps (seen : List PyStr) : List WorkflowStep → Except DefinitionFault Unit
  | [] => .ok ()
  | step :: rest =>
    if step.id ∈ seen then .error (.duplicate step.id)
    else if step.unknown seen ≠ [] then .error (.unknown step.id (step.unknown seen))
    else validateSteps (step.id :: seen) rest

/-- `_validate`, after what pydantic checks of the steps themselves. -/
def validateWorkflow (name : PyStr) (inputs : List PyStr) (steps : List WorkflowStep) :
    Except DefinitionFault Unit := do
  steps.forM WorkflowStep.validateNames
  if !matchesName name then throw (.workflowName name)
  inputs.forM fun input => if matchesName input then pure () else throw (.inputName input)
  validateSteps inputs steps

/-- A named, ordered sequence of steps. -/
structure Workflow where
  name : PyStr
  description : PyStr
  inputs : List PyStr
  steps : List WorkflowStep
  described : description ≠ []
  counted : 1 ≤ steps.length ∧ steps.length ≤ MAX_STEPS
  valid : validateWorkflow name inputs steps = .ok ()

end NexaAssist
