import NexaAssist.ForStd.PyNumeral
import NexaAssist.ForStd.Rounding

/-!
# Decimals

Finite decimals, in a context of 28 digits as Python's `decimal` has it unless it is told
otherwise. What is computed is rounded to that many digits, and what `quantize` cannot hold in
them is an error.
-/

namespace PyJson

/-- A finite decimal: its digits, and where the last of them stands. A negative zero is a zero. -/
structure PyDecimal where
  coefficient : Int
  exponent : Int
  deriving DecidableEq

/-- What traps. -/
inductive DecimalSignal
  | invalidOperation
  | overflow
  deriving DecidableEq, Repr

namespace PyDecimal

def PREC : Nat := 28

/-- The largest exponent that the first digit of a number may have. -/
def EMAX : Nat := 999999

def zero : PyDecimal := { coefficient := 0, exponent := 0 }

def value (d : PyDecimal) : Rat := d.coefficient * 10 ^ d.exponent

/-! ## Rounding -/

/-- To as many digits as the context has, of two numbers as near to the even one. -/
def toPrec (x : Rat) : Rat := Rounding.toUnit (10 ^ (Int.log 10 |x| - (PREC - 1 : Nat))) x

/-- What an operation returns whose exact result is `x`. -/
def finalize (x : Rat) : Except DecimalSignal Rat :=
  if (10 : Rat) ^ (EMAX + 1) ≤ |toPrec x| then .error .overflow else .ok (toPrec x)

/-- To a whole number, and halves away from zero: `ROUND_HALF_UP`. -/
def halfUp (x : Rat) : Int := if 0 ≤ x then ⌊x + 1 / 2⌋ else -⌊-x + 1 / 2⌋

/-- `quantize`, with halves up, to a number of places behind the point. -/
def quantize (places : Nat) (x : Rat) : Except DecimalSignal PyDecimal :=
  let coefficient := halfUp (x * 10 ^ places)
  if 10 ^ PREC ≤ coefficient.natAbs then .error .invalidOperation
  else .ok { coefficient, exponent := -places }

/-- A result of some digits, or of fewer. -/
def fix (d : PyDecimal) : PyDecimal :=
  if d.coefficient.natAbs < 10 ^ PREC then d
  else
    let extra := Nat.log 10 d.coefficient.natAbs + 1 - PREC
    let rounded := Rounding.halfEven (d.coefficient / 10 ^ extra)
    -- The rounding may carry into one more digit.
    if rounded.natAbs = 10 ^ PREC then
      { coefficient := rounded / 10, exponent := d.exponent + extra + 1 }
    else { coefficient := rounded, exponent := d.exponent + extra }

def add (a b : PyDecimal) : PyDecimal :=
  let exponent := min a.exponent b.exponent
  fix {
    coefficient := a.coefficient * 10 ^ (a.exponent - exponent).toNat +
      b.coefficient * 10 ^ (b.exponent - exponent).toNat
    exponent }

/-! ### What rounding keeps -/

variable {x : Rat}

/-- `toPrec` leaves zero. -/
theorem toPrec_zero : toPrec 0 = 0 := by
  have hround : Rounding.halfEven 0 = 0 := Rounding.halfEven_intCast 0
  rw [toPrec, Rounding.toUnit, zero_div, hround, Int.cast_zero, zero_mul]

/-- A number of no more digits than the context has is not rounded. -/
theorem toPrec_of_digits {coefficient exponent : Int} (hx : x = coefficient * 10 ^ exponent)
    (hdigits : coefficient.natAbs < 10 ^ PREC) : toPrec x = x := by
  by_cases hzero : x = 0
  · rw [hzero, toPrec_zero]
  · have hpower (k : Int) : (0 : Rat) < 10 ^ k := zpow_pos (by norm_num) k
    have hlog : Int.log 10 |x| < PREC + exponent := by
      rw [← Int.lt_zpow_iff_log_lt (by decide) (abs_pos.mpr hzero), hx, abs_mul,
        abs_of_pos (hpower exponent), Nat.cast_ofNat, zpow_add₀ (by norm_num),
        mul_lt_mul_iff_left₀ (hpower exponent), zpow_natCast, ← Int.cast_abs, Int.abs_eq_natAbs]
      exact_mod_cast hdigits
    -- So the unit divides the number
    obtain ⟨n, hn⟩ : ∃ n : Nat, exponent = Int.log 10 |x| - (PREC - 1 : Nat) + n := by
      refine ⟨(exponent - (Int.log 10 |x| - (PREC - 1 : Nat))).toNat, ?_⟩
      rw [PREC] at hlog ⊢
      omega
    have hquotient : x / 10 ^ (Int.log 10 |x| - (PREC - 1 : Nat)) = (coefficient * 10 ^ n : Int) := by
      rw [div_eq_iff (hpower _).ne']
      conv_lhs => rw [hx, hn, zpow_add₀ (by norm_num : (10 : Rat) ≠ 0)]
      push_cast
      rw [zpow_natCast]
      ring
    rw [toPrec, Rounding.toUnit, hquotient, Rounding.halfEven_intCast, ← hquotient,
      div_mul_cancel₀ _ (hpower _).ne']

/-- `halfEven` of what is not below zero is not below zero. -/
theorem halfEven_nonneg (h : 0 ≤ x) : 0 ≤ Rounding.halfEven x := by
  have hfloor : 0 ≤ ⌊x⌋ := Int.floor_nonneg.mpr h
  unfold Rounding.halfEven
  split
  · exact hfloor
  · split
    · omega
    · split <;> omega

/-- `toPrec` of what is not below zero is not below zero. -/
theorem toPrec_nonneg (h : 0 ≤ x) : 0 ≤ toPrec x := by
  have hunit : (0 : Rat) < 10 ^ (Int.log 10 |x| - (PREC - 1 : Nat)) := zpow_pos (by norm_num) _
  have hround : 0 ≤ Rounding.halfEven (x / 10 ^ (Int.log 10 |x| - (PREC - 1 : Nat))) :=
    halfEven_nonneg (div_nonneg h hunit.le)
  exact mul_nonneg (Int.cast_nonneg hround) hunit.le

/-- Rounding changes a number by less than itself. -/
theorem toPrec_le (h : 0 ≤ x) : toPrec x ≤ 2 * x := by
  obtain rfl | hpos := h.eq_or_lt
  · rw [toPrec_zero, mul_zero]
  · have hunit : (0 : Rat) < 10 ^ (Int.log 10 |x| - (PREC - 1 : Nat)) := zpow_pos (by norm_num) _
    have herror := Rounding.abs_toUnit_sub_le hunit x
    have hsmall : (10 : Rat) ^ (Int.log 10 |x| - (PREC - 1 : Nat)) ≤ x := by
      calc (10 : Rat) ^ (Int.log 10 |x| - (PREC - 1 : Nat)) ≤ 10 ^ Int.log 10 |x| := by
            apply zpow_le_zpow_right₀ (by norm_num)
            omega
        _ ≤ |x| := by
            have hle := Int.zpow_log_le_self (b := 10) (by decide) (abs_pos.mpr hpos.ne')
            exact_mod_cast hle
        _ = x := abs_of_pos hpos
    have hbound := (abs_le.mp herror).2
    rw [← toPrec] at hbound
    linarith

/-- `halfUp` of what is not below zero is not below zero. -/
theorem halfUp_nonneg (h : 0 ≤ x) : 0 ≤ halfUp x := by
  rw [halfUp, if_pos h]
  exact Int.floor_nonneg.mpr (by linarith)

/-- `halfUp` adds at most one half. -/
theorem halfUp_le (h : 0 ≤ x) : (halfUp x : Rat) ≤ x + 1 / 2 := by
  rw [halfUp, if_pos h]
  exact Int.floor_le _

/-! ### What is computed without an error -/

/-- `finalize` rounds to the precision what is far from the largest exponent. -/
theorem finalize_of_lt (h : 0 ≤ x) (hlt : 2 * x < 10 ^ (EMAX + 1)) :
    finalize x = .ok (toPrec x) := by
  apply if_neg
  rw [abs_of_nonneg (toPrec_nonneg h), not_le]
  exact (toPrec_le h).trans_lt hlt

/-- `fix` leaves a decimal whose coefficient fits the precision. -/
theorem fix_of_lt {d : PyDecimal} (h : d.coefficient.natAbs < 10 ^ PREC) : d.fix = d := if_pos h

/-- `add` does not depend on the order. -/
theorem add_comm (a b : PyDecimal) : a.add b = b.add a := by
  rw [add, add, min_comm, Int.add_comm]

/-- `add` of two decimals with one exponent adds their coefficients, if the sum fits the
    precision. -/
theorem add_of_lt {a b : PyDecimal} (hsame : a.exponent = b.exponent)
    (hlt : (a.coefficient + b.coefficient).natAbs < 10 ^ PREC) :
    a.add b = { coefficient := a.coefficient + b.coefficient, exponent := a.exponent } := by
  have hsum : ({ coefficient := a.coefficient * 10 ^ (a.exponent - min a.exponent b.exponent).toNat +
      b.coefficient * 10 ^ (b.exponent - min a.exponent b.exponent).toNat
                 exponent := min a.exponent b.exponent } : PyDecimal) =
      { coefficient := a.coefficient + b.coefficient, exponent := a.exponent } := by
    rw [← hsame, min_self, sub_self, Int.toNat_zero, pow_zero, mul_one, mul_one]
  rw [add, hsum]
  exact fix_of_lt hlt

/-- `zero.add` leaves a decimal that fits the precision and has no positive exponent. -/
theorem zero_add_of_lt {d : PyDecimal} (hplaces : d.exponent ≤ 0)
    (hlt : d.coefficient.natAbs < 10 ^ PREC) : zero.add d = d := by
  have hsum : ({ coefficient := zero.coefficient * 10 ^ (zero.exponent -
                   min zero.exponent d.exponent).toNat +
      d.coefficient * 10 ^ (d.exponent - min zero.exponent d.exponent).toNat
                 exponent := min zero.exponent d.exponent } : PyDecimal) = d := by
    have hmin : min zero.exponent d.exponent = d.exponent := min_eq_right hplaces
    rw [hmin, sub_self, Int.toNat_zero, pow_zero, mul_one]
    simp [zero]
  rw [add, hsum]
  exact fix_of_lt hlt

/-! ## Text -/

/-- `str`. -/
def text (d : PyDecimal) : PyStr :=
  let sign := if d.coefficient < 0 then PyStr.ofString "-" else []
  let digits := PyStr.ofString (toString d.coefficient.natAbs)
  let point := d.exponent + digits.length
  let adjusted := point - 1
  sign ++
    if d.exponent ≤ 0 ∧ -6 ≤ adjusted then
      if point ≤ 0 then PyStr.ofString "0." ++ (PyStr.ofString "0").flatMap (List.replicate (-point).toNat) ++ digits
      else if d.exponent = 0 then digits
      else digits.take point.toNat ++ PyStr.ofString "." ++ digits.drop point.toNat
    else
      (if digits.length = 1 then digits else digits.take 1 ++ PyStr.ofString "." ++ digits.drop 1) ++
        PyStr.ofString "E" ++ (if 0 ≤ adjusted then PyStr.ofString "+" else []) ++ PyStr.ofString (toString adjusted)

example : text { coefficient := 12, exponent := -6 } = PyStr.ofString "0.000012" := by decide

end PyDecimal

end PyJson
