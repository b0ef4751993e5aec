import Mathlib.Algebra.Ring.Int.Defs
import Mathlib.Data.List.Lex
import Mathlib.Data.List.Sort
import Mathlib.Order.Fin.Basic
import NexaAssist.Core.Errors
import NexaAssist.ForStd.PyDecimal
import NexaAssist.ForStd.PyDict
import NexaAssist.Schemas.Types

/-!
# Token usage and what it cost

How many tokens a call used, which the provider reports, and what they cost by a price list. A
call that has no price is still accounted in tokens, and says so.
-/

namespace NexaAssist

open PyJson

/-- Token accounting for a single call. -/
structure LLMUsage where
  inputTokens : Int
  outputTokens : Int

/-! ## Prices -/

/-- What one model charges, per million tokens. -/
structure ModelPricing where
  model : Text
  inputPerMillion : PyDecimal
  outputPerMillion : PyDecimal
  input_nonneg : 0 ≤ inputPerMillion.value
  output_nonneg : 0 ≤ outputPerMillion.value

/-- A price list entry could not be read. -/
def pricingConfigurationError (message : PyStr) (details : List (String × PyStr)) : AppError where
  statusCode := 500
  code := "pricing_configuration_error"
  message := message
  details := details

/-- Prices by model. -/
structure PricingTable where
  prices : PyDict PyStr ModelPricing

namespace PricingTable

/-- Empty unless an operator configured it. -/
def empty : PricingTable := { prices := [] }

/-- `__init__`. -/
def build (prices : List ModelPricing) : Except AppError PricingTable :=
  prices.foldlM (fun table price =>
    if (PyDict.get price.model.val table.prices).isSome then
      .error (pricingConfigurationError (lit "A model may be priced only once.")
        [("model", price.model.val)])
    else .ok { prices := PyDict.set price.model.val price table.prices }) empty

def get (table : PricingTable) (model : PyStr) : Option ModelPricing :=
  PyDict.get model table.prices

end PricingTable

/-! ## One call -/

/-- What one call used, and what that came to. -/
structure CostEstimate where
  provider : PyStr
  model : PyStr
  inputTokens : Int
  outputTokens : Int
  inputCost : PyDecimal
  outputCost : PyDecimal
  usageReported : Bool
  priced : Bool
  tokens_nonneg : 0 ≤ inputTokens ∧ 0 ≤ outputTokens
  costs_nonneg : 0 ≤ inputCost.coefficient ∧ 0 ≤ outputCost.coefficient

def CostEstimate.totalCost (estimate : CostEstimate) : PyDecimal :=
  estimate.inputCost.add estimate.outputCost

/-- Why a call cannot be accounted for. -/
inductive CostFailure
  | decimal (signal : DecimalSignal)
  | validationError
  deriving DecidableEq, Repr

/-- `type(exc).__name__`. -/
def CostFailure.className : CostFailure → PyStr
  | .decimal .invalidOperation => lit "InvalidOperation"
  | .decimal .overflow => lit "Overflow"
  | .validationError => lit "ValidationError"

/-- Prices are quoted per million tokens. -/
def TOKENS_PER_UNIT : Rat := 1000000

/-- The places of `COST_PRECISION`. -/
def COST_PLACES : Nat := 6

/-- `_cost`. -/
def cost (tokens : Int) (perMillion : PyDecimal) : Except DecimalSignal PyDecimal := do
  let units ← PyDecimal.finalize (tokens / TOKENS_PER_UNIT)
  let product ← PyDecimal.finalize (units * perMillion.value)
  PyDecimal.quantize COST_PLACES product

/-- What is validated of an estimate: that no number of it is negative. -/
def validateEstimate (provider model : PyStr) (usage : LLMUsage) (inputCost outputCost : PyDecimal)
    (reported priced : Bool) : Except CostFailure CostEstimate :=
  if h : (0 ≤ usage.inputTokens ∧ 0 ≤ usage.outputTokens) ∧
      0 ≤ inputCost.coefficient ∧ 0 ≤ outputCost.coefficient then
    .ok {
      provider, model, inputCost, outputCost, priced
      inputTokens := usage.inputTokens
      outputTokens := usage.outputTokens
      usageReported := reported
      tokens_nonneg := h.1
      costs_nonneg := h.2 }
  else .error .validationError

def estimateCost (provider model : PyStr) (usage : LLMUsage) (pricing : PricingTable) :
    Except CostFailure CostEstimate := do
  let reported := usage.inputTokens ≠ 0 || usage.outputTokens ≠ 0
  match pricing.get model with
  | none => validateEstimate provider model usage .zero .zero reported false
  | some price =>
    let inputCost ← (cost usage.inputTokens price.inputPerMillion).mapError .decimal
    let outputCost ← (cost usage.outputTokens price.outputPerMillion).mapError .decimal
    validateEstimate provider model usage inputCost outputCost reported true

/-! ## Several calls -/

/-- The entries of a ledger, in the order they were added. -/
structure UsageLedger where
  entries : List CostEstimate

namespace UsageLedger

def empty : UsageLedger := { entries := [] }

def add (ledger : UsageLedger) (estimate : CostEstimate) : UsageLedger :=
  { entries := ledger.entries ++ [estimate] }

def calls (ledger : UsageLedger) : Nat := ledger.entries.length

def inputTokens (ledger : UsageLedger) : Int := (ledger.entries.map (·.inputTokens)).sum

def outputTokens (ledger : UsageLedger) : Int := (ledger.entries.map (·.outputTokens)).sum

def totalTokens (ledger : UsageLedger) : Int := ledger.inputTokens + ledger.outputTokens

/-- `sum(.., Decimal("0"))`. -/
def totalCost (ledger : UsageLedger) : PyDecimal :=
  ledger.entries.foldl (fun total entry => total.add entry.totalCost) .zero

/-- Whether every call could be priced. -/
def fullyPriced (ledger : UsageLedger) : Bool := ledger.entries.all (·.priced)

/-- The totals of `by_model`, before they are sorted. -/
def modelTotals (ledger : UsageLedger) : PyDict PyStr PyDecimal :=
  ledger.entries.foldl (fun totals entry =>
    PyDict.set entry.model
      (((PyDict.get entry.model totals).getD .zero).add entry.totalCost) totals) []

def byModel (ledger : UsageLedger) : PyDict PyStr PyDecimal :=
  ledger.modelTotals.insertionSort fun a b => a.1 ≤ b.1

/-- `summary`. -/
def summary (ledger : UsageLedger) : PyStr :=
  lit "calls=" ++ .ofString (toString ledger.calls) ++
    lit " input_tokens=" ++ .ofString (toString ledger.inputTokens) ++
    lit " output_tokens=" ++ .ofString (toString ledger.outputTokens) ++
    lit " cost=" ++ ledger.totalCost.text ++
    lit " fully_priced=" ++ (if ledger.fullyPriced then lit "True" else lit "False")

end UsageLedger

end NexaAssist
