import Mathlib.Algebra.Order.BigOperators.Group.List
import NexaAssist.Observability.Cost

/-!
# What a ledger adds up to

Costs are rounded once, to the microdollar, and added exactly: as long as a total has the digits
for it, no order of the calls and no grouping by model changes it.
-/

namespace NexaAssist.Spec.CostTotals

open PyJson

/-! ## Microdollars -/

/-- A decimal that is a number of microdollars. An unpriced call costs a plain zero. -/
def Amount (d : PyDecimal) (micros : Int) : Prop :=
  d = { coefficient := micros, exponent := -6 } ∨ d = .zero ∧ micros = 0

namespace Amount

variable {a b : PyDecimal} {m n : Int}

/-- The coefficient of an amount is its micros. -/
theorem coefficient_eq (h : Amount a m) : a.coefficient = m := by
  obtain rfl | ⟨rfl, rfl⟩ := h
  · rfl
  · rfl

/-- An `Amount` of `m` micros is worth `m / 1000000`. -/
theorem value_eq (h : Amount a m) : a.value = m / 1000000 := by
  obtain rfl | ⟨rfl, rfl⟩ := h
  · rw [PyDecimal.value, zpow_neg, div_eq_mul_inv]
    norm_num
  · simp [PyDecimal.value, PyDecimal.zero]

/-- `PyDecimal.zero` is an `Amount` of no micros. -/
theorem zero : Amount .zero 0 := .inr ⟨rfl, rfl⟩

/-- `add` adds amounts exactly, while the precision has the digits for the sum. -/
theorem add (ha : Amount a m) (hb : Amount b n) (hm : 0 ≤ m) (hn : 0 ≤ n)
    (hlt : m + n < 10 ^ PyDecimal.PREC) : Amount (a.add b) (m + n) := by
  have hdigits (k : Int) (hk : 0 ≤ k) (hle : k ≤ m + n) : k.natAbs < 10 ^ PyDecimal.PREC := by
    have hbound : (k.natAbs : Int) < (10 ^ PyDecimal.PREC : Nat) := by
      rw [Int.natAbs_of_nonneg hk]
      push_cast
      omega
    exact_mod_cast hbound
  obtain rfl | ⟨rfl, rfl⟩ := ha
  · obtain rfl | ⟨rfl, rfl⟩ := hb
    · exact .inl (PyDecimal.add_of_lt rfl (hdigits (m + n) (by omega) le_rfl))
    · rw [PyDecimal.add_comm, PyDecimal.zero_add_of_lt (by simp) (hdigits m hm (by omega)), add_zero]
      exact .inl rfl
  · obtain rfl | ⟨rfl, rfl⟩ := hb
    · rw [PyDecimal.zero_add_of_lt (by simp) (hdigits n hn (by omega)), zero_add]
      exact .inl rfl
    · exact .inr ⟨by decide, rfl⟩

end Amount

/-! ## One cost -/

section Cost

variable {tokens : Int} {price : PyDecimal}

/-- A count of tokens at a price, where neither is out of all proportion. -/
structure Payable (tokens : Int) (price : PyDecimal) : Prop where
  tokens_nonneg : 0 ≤ tokens
  price_nonneg : 0 ≤ price.value
  dollars : (tokens : Rat) / TOKENS_PER_UNIT * price.value ≤ 10 ^ 21
  tokens_lt : (tokens : Rat) < 10 ^ PyDecimal.EMAX

/-- `TOKENS_PER_UNIT` is not zero. -/
theorem TOKENS_PER_UNIT_pos : 0 < TOKENS_PER_UNIT := by
  rw [TOKENS_PER_UNIT]
  norm_num

namespace Payable

/-- No count of tokens is below nothing. -/
theorem units_nonneg (h : Payable tokens price) : 0 ≤ (tokens : Rat) / TOKENS_PER_UNIT :=
  div_nonneg (Int.cast_nonneg h.tokens_nonneg) TOKENS_PER_UNIT_pos.le

/-- `finalize` rounds a payable count of units to the precision. -/
theorem units (h : Payable tokens price) :
    PyDecimal.finalize (tokens / TOKENS_PER_UNIT) =
      .ok (PyDecimal.toPrec (tokens / TOKENS_PER_UNIT)) := by
  apply PyDecimal.finalize_of_lt h.units_nonneg
  have hlt := h.tokens_lt
  have hnonneg : (0 : Rat) ≤ tokens := Int.cast_nonneg h.tokens_nonneg
  calc 2 * ((tokens : Rat) / TOKENS_PER_UNIT) ≤ tokens := by
        rw [TOKENS_PER_UNIT]
        linarith
    _ < 10 ^ PyDecimal.EMAX := hlt
    _ ≤ 10 ^ (PyDecimal.EMAX + 1) := pow_le_pow_right₀ (by norm_num) (Nat.le_succ _)

/-- The price of a payable count of tokens is not below zero. -/
theorem product_nonneg (h : Payable tokens price) :
    0 ≤ PyDecimal.toPrec (tokens / TOKENS_PER_UNIT) * price.value :=
  mul_nonneg (PyDecimal.toPrec_nonneg h.units_nonneg) h.price_nonneg

/-- The price of a payable count has at most 22 digits before the point. -/
theorem product_le (h : Payable tokens price) :
    PyDecimal.toPrec (tokens / TOKENS_PER_UNIT) * price.value ≤ 2 * 10 ^ 21 := by
  calc PyDecimal.toPrec (tokens / TOKENS_PER_UNIT) * price.value
      ≤ 2 * (tokens / TOKENS_PER_UNIT) * price.value :=
        mul_le_mul_of_nonneg_right (PyDecimal.toPrec_le h.units_nonneg) h.price_nonneg
    _ = 2 * (tokens / TOKENS_PER_UNIT * price.value) := mul_assoc _ _ _
    _ ≤ 2 * 10 ^ 21 := mul_le_mul_of_nonneg_left h.dollars (by norm_num)

/-- `finalize` keeps the price of a payable count of tokens. -/
theorem product (h : Payable tokens price) :
    PyDecimal.finalize (PyDecimal.toPrec (tokens / TOKENS_PER_UNIT) * price.value) =
      .ok (PyDecimal.toPrec (PyDecimal.toPrec (tokens / TOKENS_PER_UNIT) * price.value)) := by
  apply PyDecimal.finalize_of_lt h.product_nonneg
  calc 2 * (PyDecimal.toPrec (tokens / TOKENS_PER_UNIT) * price.value) ≤ 2 * (2 * 10 ^ 21) :=
        mul_le_mul_of_nonneg_left h.product_le (by norm_num)
    _ < 10 ^ 22 := by norm_num
    _ ≤ 10 ^ (PyDecimal.EMAX + 1) := pow_le_pow_right₀ (by norm_num) (by decide)

/-- `quantize` rounds an amount up to `4 * 10 ^ 21` to its places. -/
theorem quantized {x : Rat} (hx : 0 ≤ x) (hle : x ≤ 4 * 10 ^ 21) :
    PyDecimal.quantize COST_PLACES x =
      .ok { coefficient := PyDecimal.halfUp (x * 10 ^ COST_PLACES), exponent := -COST_PLACES } := by
  have hscaled : 0 ≤ x * 10 ^ COST_PLACES := mul_nonneg hx (by norm_num)
  have hround : (PyDecimal.halfUp (x * 10 ^ COST_PLACES) : Rat) < (10 ^ PyDecimal.PREC : Nat) := by
    calc (PyDecimal.halfUp (x * 10 ^ COST_PLACES) : Rat) ≤ x * 10 ^ COST_PLACES + 1 / 2 :=
          PyDecimal.halfUp_le hscaled
      _ ≤ 4 * 10 ^ 21 * 10 ^ COST_PLACES + 1 / 2 := by gcongr
      _ < (10 ^ PyDecimal.PREC : Nat) := by
          rw [COST_PLACES, PyDecimal.PREC]
          norm_num
  have hnonneg := PyDecimal.halfUp_nonneg hscaled
  apply if_neg
  rw [not_le]
  have hlt : PyDecimal.halfUp (x * 10 ^ COST_PLACES) < (10 ^ PyDecimal.PREC : Nat) := by
    exact_mod_cast hround
  omega

/-- `cost` of a payable count of tokens is computed and is not negative. -/
theorem cost_ok (h : Payable tokens price) :
    ∃ result, cost tokens price = .ok result ∧ 0 ≤ result.coefficient := by
  have hnonneg := PyDecimal.toPrec_nonneg h.product_nonneg
  have hle : PyDecimal.toPrec (PyDecimal.toPrec (tokens / TOKENS_PER_UNIT) * price.value) ≤
      4 * 10 ^ 21 := by
    have htwice := PyDecimal.toPrec_le h.product_nonneg
    have hproduct := h.product_le
    linarith
  have hplaces : (0 : Rat) ≤ 10 ^ COST_PLACES := pow_nonneg (by norm_num) _
  refine ⟨{ coefficient := PyDecimal.halfUp (PyDecimal.toPrec (PyDecimal.toPrec
    (tokens / TOKENS_PER_UNIT) * price.value) * 10 ^ COST_PLACES), exponent := -COST_PLACES }, ?_,
    PyDecimal.halfUp_nonneg (mul_nonneg hnonneg hplaces)⟩
  rw [cost, h.units]
  simp only [bind, Except.bind]
  rw [h.product]
  exact quantized hnonneg hle

/-- Where the product has the digits, nothing is rounded but the cost. -/
theorem cost_exact (h : Payable tokens price) (htokens : tokens.natAbs < 10 ^ PyDecimal.PREC)
    (hdigits : (tokens * price.coefficient).natAbs < 10 ^ PyDecimal.PREC) :
    cost tokens price =
      .ok { coefficient := PyDecimal.halfUp (tokens * price.value), exponent := -6 } := by
  have hunits : (tokens : Rat) / TOKENS_PER_UNIT = tokens * 10 ^ (-6 : Int) := by
    rw [TOKENS_PER_UNIT]
    norm_num
    ring
  have hproduct : (tokens : Rat) / TOKENS_PER_UNIT * price.value =
      (tokens * price.coefficient : Int) * 10 ^ (price.exponent - 6) := by
    rw [TOKENS_PER_UNIT, PyDecimal.value, zpow_sub₀ (by norm_num)]
    push_cast
    ring
  have hscaled : (tokens : Rat) / TOKENS_PER_UNIT * price.value * 10 ^ COST_PLACES =
      tokens * price.value := by
    rw [TOKENS_PER_UNIT, COST_PLACES]
    norm_num
    ring
  have hnonneg : 0 ≤ (tokens : Rat) / TOKENS_PER_UNIT * price.value :=
    mul_nonneg h.units_nonneg h.price_nonneg
  have hle : (tokens : Rat) / TOKENS_PER_UNIT * price.value ≤ 4 * 10 ^ 21 := by
    have hdollars := h.dollars
    linarith
  rw [cost, h.units]
  simp only [bind, Except.bind]
  rw [h.product, PyDecimal.toPrec_of_digits hunits htokens, PyDecimal.toPrec_of_digits hproduct hdigits]
  simp only
  rw [quantized hnonneg hle, hscaled]
  rfl

end Payable

end Cost

/-! ## Estimates -/

/-- What a call cost, in microdollars. -/
def micros (estimate : CostEstimate) : Int :=
  estimate.inputCost.coefficient + estimate.outputCost.coefficient

/-- No estimate is below nothing. -/
theorem micros_nonneg (estimate : CostEstimate) : 0 ≤ micros estimate :=
  Int.add_nonneg estimate.costs_nonneg.1 estimate.costs_nonneg.2

/-- What is known of an estimate. -/
structure Estimated (provider model : PyStr) (usage : LLMUsage) (estimate : CostEstimate) :
    Prop where
  provider_eq : estimate.provider = provider
  model_eq : estimate.model = model
  input_eq : estimate.inputTokens = usage.inputTokens
  output_eq : estimate.outputTokens = usage.outputTokens
  input_amount : Amount estimate.inputCost estimate.inputCost.coefficient
  output_amount : Amount estimate.outputCost estimate.outputCost.coefficient

/-- `cost` gives whole micros. -/
theorem amount_of_cost {tokens : Int} {price result : PyDecimal}
    (h : cost tokens price = .ok result) : Amount result result.coefficient := by
  simp only [cost, bind, Except.bind] at h
  split at h
  · cases h
  · split at h
    · cases h
    · simp only [PyDecimal.quantize] at h
      split at h
      · cases h
      · obtain rfl := Except.ok.inj h
        exact .inl rfl

/-- What `validateEstimate` lets through is `Estimated`. -/
theorem estimated_of_validated {provider model : PyStr} {usage : LLMUsage}
    {inputCost outputCost : PyDecimal} {reported priced : Bool} {estimate : CostEstimate}
    (hin : Amount inputCost inputCost.coefficient)
    (hout : Amount outputCost outputCost.coefficient)
    (h : validateEstimate provider model usage inputCost outputCost reported priced =
      .ok estimate) : Estimated provider model usage estimate := by
  simp only [validateEstimate] at h
  split at h
  · obtain rfl := Except.ok.inj h
    exact ⟨rfl, rfl, rfl, rfl, hin, hout⟩
  · cases h

/-- `estimateCost` gives an estimate that `Estimated` describes. -/
theorem estimated {provider model : PyStr} {usage : LLMUsage} {pricing : PricingTable}
    {estimate : CostEstimate} (h : estimateCost provider model usage pricing = .ok estimate) :
    Estimated provider model usage estimate := by
  simp only [estimateCost] at h
  split at h
  · exact estimated_of_validated .zero .zero h
  · rename_i price hprice
    simp only [bind, Except.bind] at h
    cases hin : cost usage.inputTokens price.inputPerMillion with
    | error signal =>
      rw [hin] at h
      cases h
    | ok inputCost =>
      cases hout : cost usage.outputTokens price.outputPerMillion with
      | error signal =>
        rw [hin, hout] at h
        cases h
      | ok outputCost =>
        rw [hin, hout] at h
        exact estimated_of_validated (amount_of_cost hin) (amount_of_cost hout) h

/-- While there are digits for it, what a call cost is the sum of its sides. -/
theorem Estimated.total {provider model : PyStr} {usage : LLMUsage} {estimate : CostEstimate}
    (h : Estimated provider model usage estimate)
    (hlt : micros estimate < 10 ^ PyDecimal.PREC) : Amount estimate.totalCost (micros estimate) :=
  h.input_amount.add h.output_amount estimate.costs_nonneg.1 estimate.costs_nonneg.2 hlt

/-! ## Sums -/

/-- No total is below nothing. -/
theorem sum_nonneg (entries : List CostEstimate) : 0 ≤ (entries.map micros).sum := by
  apply List.sum_nonneg
  intro n hn
  obtain ⟨estimate, -, rfl⟩ := List.mem_map.mp hn
  exact micros_nonneg estimate

/-- A total of entries from some amount on is that amount and theirs. -/
theorem amount_foldl {entries : List CostEstimate} {start : PyDecimal} {m : Int}
    (hstart : Amount start m) (hm : 0 ≤ m)
    (heach : ∀ e ∈ entries, Amount e.totalCost (micros e))
    (hlt : m + (entries.map micros).sum < 10 ^ PyDecimal.PREC) :
    Amount (entries.foldl (fun total e => total.add e.totalCost) start)
      (m + (entries.map micros).sum) := by
  induction entries generalizing start m with
  | nil => simpa using hstart
  | cons e entries ih =>
    rw [List.map_cons, List.sum_cons, ← add_assoc] at hlt ⊢
    have hrest := sum_nonneg entries
    have hadd : Amount (start.add e.totalCost) (m + micros e) :=
      hstart.add (heach e List.mem_cons_self) hm (micros_nonneg e) (by omega)
    exact ih hadd (Int.add_nonneg hm (micros_nonneg e))
      (fun other hother => heach other (List.mem_cons_of_mem e hother)) hlt

/-! ## By model -/

/-- What the calls of a model cost. -/
def microsOf (model : PyStr) (entries : List CostEstimate) : Int :=
  ((entries.filter fun e => e.model = model).map micros).sum

/-- `set` changes the sum of a dictionary by the new value less the old one. -/
theorem sum_set (f : PyDecimal → Int) (key : PyStr) (value : PyDecimal) (d : PyDict PyStr PyDecimal) :
    ((PyDict.set key value d).map fun entry => f entry.2).sum =
      (d.map fun entry => f entry.2).sum + f value - ((PyDict.get key d).map f).getD 0 := by
  induction d with
  | nil => simp [PyDict.set, PyDict.get]
  | cons entry rest ih =>
    obtain ⟨k, old⟩ := entry
    by_cases hk : k = key
    · simp only [PyDict.set, PyDict.get, if_pos hk, List.map_cons, List.sum_cons, Option.map_some,
        Option.getD_some]
      omega
    · simp only [PyDict.set, PyDict.get, if_neg hk, List.map_cons, List.sum_cons, ih]
      omega

/-- What the totals by model hold of some entries. -/
structure Grouped (entries : List CostEstimate) (totals : PyDict PyStr PyDecimal) : Prop where
  nodup : (PyDict.keys totals).Nodup
  models : ∀ model, model ∈ PyDict.keys totals ↔ model ∈ entries.map (·.model)
  amounts : ∀ model, Amount ((PyDict.get model totals).getD .zero) (microsOf model entries)
  sum : (totals.map fun entry => entry.2.coefficient).sum = (entries.map micros).sum

/-- One more entry adds to the micros of its own model. -/
theorem microsOf_concat (model : PyStr) (entries : List CostEstimate) (e : CostEstimate) :
    microsOf model (entries ++ [e]) =
      microsOf model entries + if e.model = model then micros e else 0 := by
  rw [microsOf, List.filter_append, List.map_append, List.sum_append, ← microsOf]
  by_cases h : e.model = model
  · simp [h]
  · simp [h]

/-- The micros of one model are part of all. -/
theorem microsOf_le (model : PyStr) (entries : List CostEstimate) :
    microsOf model entries ≤ (entries.map micros).sum := by
  apply List.Sublist.sum_le_sum (List.filter_sublist.map micros)
  intro n hn
  obtain ⟨e, -, rfl⟩ := List.mem_map.mp hn
  exact micros_nonneg e

/-- `modelTotals` has one exact amount for each model. -/
theorem grouped {ledger : UsageLedger} (heach : ∀ e ∈ ledger.entries, Amount e.totalCost (micros e))
    (hlt : (ledger.entries.map micros).sum < 10 ^ PyDecimal.PREC) :
    Grouped ledger.entries ledger.modelTotals := by
  obtain ⟨entries⟩ := ledger
  -- Induction on the entries as `by_model` adds them up, oldest first
  induction entries using List.reverseRecOn with
  | nil => exact ⟨List.nodup_nil, fun _ => Iff.rfl, fun _ => .zero, rfl⟩
  | append_singleton entries e ih =>
    simp only [List.map_append, List.sum_append, List.map_cons, List.map_nil, List.sum_cons,
      List.sum_nil, add_zero] at hlt
    have hnonneg := micros_nonneg e
    have hbefore : Grouped entries (UsageLedger.modelTotals { entries }) := by
      refine ih (fun other hother => heach other (List.mem_append_left _ hother)) ?_
      simp only
      omega
    have htotals : UsageLedger.modelTotals { entries := entries ++ [e] } =
        PyDict.set e.model (((PyDict.get e.model
          (UsageLedger.modelTotals { entries })).getD .zero).add e.totalCost)
          (UsageLedger.modelTotals { entries }) := by
      rw [UsageLedger.modelTotals, List.foldl_append]
      rfl
    -- The new total has no more digits than the sum over all models
    have hle := microsOf_le e.model entries
    have hsum : 0 ≤ microsOf e.model entries := sum_nonneg _
    have hnew : Amount (((PyDict.get e.model (UsageLedger.modelTotals { entries })).getD .zero).add
        e.totalCost) (microsOf e.model entries + micros e) :=
      (hbefore.amounts e.model).add (heach e (by simp)) hsum hnonneg (by omega)
    rw [htotals]
    constructor
    case nodup => exact PyDict.nodup_keys_set hbefore.nodup
    case models =>
      intro model
      rw [PyDict.mem_keys_set, hbefore.models model, List.map_append, List.mem_append, or_comm]
      simp
    case amounts =>
      intro model
      rw [microsOf_concat]
      by_cases hmodel : e.model = model
      · subst hmodel
        rw [PyDict.get_set_self, if_pos rfl]
        exact hnew
      · rw [PyDict.get_set_ne (Ne.symm hmodel), if_neg hmodel, add_zero]
        exact hbefore.amounts model
    -- One group goes up by the new entry, and the others stay
    case sum =>
      have hold : ((PyDict.get e.model (UsageLedger.modelTotals { entries })).map
          PyDecimal.coefficient).getD 0 = microsOf e.model entries := by
        rw [← (hbefore.amounts e.model).coefficient_eq]
        cases PyDict.get e.model (UsageLedger.modelTotals { entries }) <;> rfl
      rw [sum_set PyDecimal.coefficient, hbefore.sum, hold, hnew.coefficient_eq, List.map_append,
        List.sum_append, List.map_singleton, List.sum_singleton]
      omega

/-! ## The law -/

/-- What a ledger adds up to. -/
structure Exact (ledger : UsageLedger) : Prop where
  each : ∀ e ∈ ledger.entries, e.totalCost.value = e.inputCost.value + e.outputCost.value
  total : ledger.totalCost.value = (ledger.entries.map fun e => e.totalCost.value).sum
  models : ∀ model, model ∈ PyDict.keys ledger.byModel ↔ ∃ e ∈ ledger.entries, e.model = model
  byModel : ∀ model, ((PyDict.get model ledger.byModel).getD .zero).value =
    ((ledger.entries.filter fun e => e.model = model).map fun e => e.totalCost.value).sum
  grouped : (ledger.byModel.map fun entry => entry.2.value).sum = ledger.totalCost.value
  unordered : ∀ other : UsageLedger, other.entries.Perm ledger.entries →
    other.totalCost.value = ledger.totalCost.value ∧ ∀ model,
      ((PyDict.get model other.byModel).getD .zero).value =
        ((PyDict.get model ledger.byModel).getD .zero).value

/-- The values of amounts add up as their coefficients do. -/
theorem values_sum {amounts : List PyDecimal} (h : ∀ d ∈ amounts, Amount d d.coefficient) :
    (amounts.map (·.value)).sum = ((amounts.map (·.coefficient)).sum : Int) / 1000000 := by
  induction amounts with
  | nil => simp
  | cons d amounts ih =>
    rw [List.map_cons, List.sum_cons, List.map_cons, List.sum_cons,
      ih fun other hother => h other (List.mem_cons_of_mem d hother),
      (h d List.mem_cons_self).value_eq]
    push_cast
    ring

/-- The total costs of entries sum to the sum of their micros. -/
theorem value_sum {entries : List CostEstimate}
    (heach : ∀ e ∈ entries, Amount e.totalCost (micros e)) :
    (entries.map fun e => e.totalCost.value).sum = (entries.map micros).sum / 1000000 := by
  have hcoefficients : (entries.map CostEstimate.totalCost).map (·.coefficient) =
      entries.map micros := by
    rw [List.map_map]
    exact List.map_congr_left fun e he => (heach e he).coefficient_eq
  rw [← hcoefficients, ← values_sum, List.map_map]
  · rfl
  · intro d hd
    obtain ⟨e, he, rfl⟩ := List.mem_map.mp hd
    rw [(heach e he).coefficient_eq]
    exact heach e he

/-- `get` does not depend on the order of the entries. -/
theorem get_of_perm {d d' : PyDict PyStr PyDecimal} (hnodup : (PyDict.keys d).Nodup)
    (h : d'.Perm d) (key : PyStr) : PyDict.get key d' = PyDict.get key d := by
  have hnodup' : (PyDict.keys d').Nodup := (h.map Prod.fst).nodup_iff.mpr hnodup
  cases hget : PyDict.get key d with
  | none =>
    rw [PyDict.get_eq_none_iff] at hget ⊢
    exact fun hmem => hget ((h.map Prod.fst).mem_iff.mp hmem)
  | some value =>
    exact PyDict.get_of_mem hnodup' (h.mem_iff.mpr (PyDict.mem_of_get hget))

/-- A ledger whose calls cost microdollars, and whose total has the digits for them. -/
structure Summable (ledger : UsageLedger) : Prop where
  each : ∀ e ∈ ledger.entries, Amount e.totalCost (micros e)
  digits : (ledger.entries.map micros).sum < 10 ^ PyDecimal.PREC

namespace Summable

variable {ledger other : UsageLedger}

/-- A ledger can be summed in any order. -/
theorem perm (h : Summable ledger) (hperm : other.entries.Perm ledger.entries) : Summable other where
  each e he := h.each e (hperm.mem_iff.mp he)
  digits := by
    rw [(hperm.map micros).sum_eq]
    exact h.digits

/-- `totalCost` is the exact sum. -/
theorem totalCost_value (h : Summable ledger) :
    ledger.totalCost.value = (ledger.entries.map micros).sum / 1000000 := by
  have hamount := amount_foldl .zero le_rfl h.each (by
    rw [zero_add]
    exact h.digits)
  rw [zero_add] at hamount
  exact hamount.value_eq

/-- `byModel` has the entries of `modelTotals`. -/
theorem byModel_perm (ledger : UsageLedger) : ledger.byModel.Perm ledger.modelTotals :=
  List.perm_insertionSort _ _

/-- `byModel` has for each model the exact sum of its entries. -/
theorem byModel_value (h : Summable ledger) (model : PyStr) :
    ((PyDict.get model ledger.byModel).getD .zero).value =
      microsOf model ledger.entries / 1000000 := by
  have hgrouped := grouped h.each h.digits
  rw [get_of_perm hgrouped.nodup (byModel_perm ledger), (hgrouped.amounts model).value_eq]

end Summable

/-- A ledger of estimates is `Summable`, while the precision has the digits for its total. -/
theorem summable {pricing : PricingTable} {ledger : UsageLedger}
    (hestimated : ∀ e ∈ ledger.entries, ∃ usage,
      estimateCost e.provider e.model usage pricing = .ok e)
    (hlt : (ledger.entries.map micros).sum < 10 ^ PyDecimal.PREC) : Summable ledger where
  each e he := by
    obtain ⟨usage, husage⟩ := hestimated e he
    apply (estimated husage).total
    refine lt_of_le_of_lt (List.single_le_sum ?_ (micros e) (List.mem_map_of_mem he)) hlt
    intro n hn
    obtain ⟨other, -, rfl⟩ := List.mem_map.mp hn
    exact micros_nonneg other
  digits := hlt

/-- A ledger of estimates by some prices adds up exactly, while its total has the digits for
    it. -/
theorem ledger_exact (pricing : PricingTable) (ledger : UsageLedger)
    (hestimated : ∀ e ∈ ledger.entries, ∃ usage,
      estimateCost e.provider e.model usage pricing = .ok e)
    (hlt : (ledger.entries.map micros).sum < 10 ^ PyDecimal.PREC) : Exact ledger := by
  have hsum : Summable ledger := summable hestimated hlt
  have hgrouped := grouped hsum.each hsum.digits
  constructor
  case each =>
    intro e he
    obtain ⟨usage, husage⟩ := hestimated e he
    have hest := estimated husage
    rw [(hsum.each e he).value_eq, hest.input_amount.value_eq, hest.output_amount.value_eq, micros]
    push_cast
    ring
  case total => rw [hsum.totalCost_value, value_sum hsum.each]
  case models =>
    intro model
    rw [PyDict.keys, ((Summable.byModel_perm ledger).map Prod.fst).mem_iff, ← PyDict.keys,
      hgrouped.models model, List.mem_map]
  case byModel =>
    intro model
    rw [hsum.byModel_value model, value_sum]
    · rfl
    · exact fun e he => hsum.each e (List.mem_filter.mp he).1
  case grouped =>
    -- The totals are whole micros, so their sum is the sum of the coefficients
    have hvalues : (ledger.modelTotals.map fun entry => entry.2.value).sum =
        ((ledger.modelTotals.map fun entry => entry.2.coefficient).sum : Int) / 1000000 := by
      have hamounts : ∀ d ∈ ledger.modelTotals.map Prod.snd, Amount d d.coefficient := by
        intro d hd
        obtain ⟨entry, hentry, rfl⟩ := List.mem_map.mp hd
        have hamount := hgrouped.amounts entry.1
        rw [PyDict.get_of_mem hgrouped.nodup hentry, Option.getD_some] at hamount
        rw [hamount.coefficient_eq]
        exact hamount
      have hsums := values_sum hamounts
      rwa [List.map_map, List.map_map] at hsums
    rw [((Summable.byModel_perm ledger).map fun entry => entry.2.value).sum_eq, hvalues,
      hgrouped.sum, hsum.totalCost_value]
  case unordered =>
    intro other hperm
    have hother := hsum.perm hperm
    refine ⟨?_, fun model => ?_⟩
    · rw [hother.totalCost_value, hsum.totalCost_value, (hperm.map micros).sum_eq]
    · rw [hother.byModel_value, hsum.byModel_value, microsOf, microsOf,
        ((hperm.filter _).map micros).sum_eq]

/-! A priced model, and a call of it. -/

def sonnetName : PyStr := lit "claude-sonnet"

/-- The model of the example has a name. -/
theorem sonnetName_ne_nil : sonnetName ≠ [] := by decide

def sonnetInput : PyDecimal := { coefficient := 300, exponent := -2 }

def sonnetOutput : PyDecimal := { coefficient := 1500, exponent := -2 }

/-- The price of the model for input is not below zero. -/
theorem sonnetInput_nonneg : 0 ≤ sonnetInput.value :=
  mul_nonneg (by norm_num [sonnetInput]) (zpow_nonneg (by norm_num) _)

/-- The price of the model for output is not below zero. -/
theorem sonnetOutput_nonneg : 0 ≤ sonnetOutput.value :=
  mul_nonneg (by norm_num [sonnetOutput]) (zpow_nonneg (by norm_num) _)

def sonnet : ModelPricing where
  model := ⟨sonnetName, sonnetName_ne_nil⟩
  inputPerMillion := sonnetInput
  outputPerMillion := sonnetOutput
  input_nonneg := sonnetInput_nonneg
  output_nonneg := sonnetOutput_nonneg

def sonnetOnly : PricingTable := { prices := [(sonnetName, sonnet)] }

/-- The counts of tokens of the call are not below zero. -/
theorem sonnetTokens_nonneg : (0 : Int) ≤ 1200 ∧ (0 : Int) ≤ 350 := by decide

/-- The costs of the call are not below zero. -/
theorem sonnetCosts_nonneg : (0 : Int) ≤ 3600 ∧ (0 : Int) ≤ 5250 := by decide

def sonnetCall : CostEstimate where
  provider := lit "anthropic"
  model := sonnetName
  inputTokens := 1200
  outputTokens := 350
  inputCost := { coefficient := 3600, exponent := -6 }
  outputCost := { coefficient := 5250, exponent := -6 }
  usageReported := true
  priced := true
  tokens_nonneg := sonnetTokens_nonneg
  costs_nonneg := sonnetCosts_nonneg

/-- `estimateCost` of the example. -/
theorem estimateCost_sonnet : estimateCost (lit "anthropic") sonnetName
    { inputTokens := 1200, outputTokens := 350 } sonnetOnly = .ok sonnetCall := by
  have hin : cost 1200 sonnetInput = .ok sonnetCall.inputCost := by decide +kernel
  have hout : cost 350 sonnetOutput = .ok sonnetCall.outputCost := by decide +kernel
  have hprice : sonnetOnly.get sonnetName = some sonnet := rfl
  simp only [estimateCost, hprice, sonnet, hin, hout]
  rfl

/-- A ledger of two calls of one model is summed exactly. -/
theorem ledger_exact_sonnet : Exact { entries := [sonnetCall, sonnetCall] } := by
  apply ledger_exact sonnetOnly
  · intro e he
    obtain rfl : e = sonnetCall := by simpa using he
    exact ⟨_, estimateCost_sonnet⟩
  · decide

end NexaAssist.Spec.CostTotals
