import Mathlib.Algebra.Order.Floor.Ring
import Mathlib.Data.Int.Log
import Mathlib.Data.Rat.Floor
import Mathlib.Tactic.Linarith
import Mathlib.Tactic.FieldSimp

/-!
# Rounding of rational numbers

To a whole number, with ties to the even one or away from zero; to a multiple of a unit; to a
number of digits in some base; and to the nearest binary64 number.
-/

namespace Rounding

/-! ## To a whole number -/

/-- The nearest whole number, and of two the even one. -/
def halfEven (x : Rat) : Int :=
  if x - ⌊x⌋ < 1 / 2 then ⌊x⌋
  else if 1 / 2 < x - ⌊x⌋ then ⌊x⌋ + 1
  else if ⌊x⌋ % 2 = 0 then ⌊x⌋ else ⌊x⌋ + 1

variable {x : Rat}

/-- `halfEven` is off by at most one half. -/
theorem abs_halfEven_sub_le (x : Rat) : |(halfEven x : Rat) - x| ≤ 1 / 2 := by
  have hfloor := Int.floor_le x
  have hlt := Int.lt_floor_add_one x
  rw [abs_le]
  unfold halfEven
  split
  · constructor <;> linarith
  · split
    · push_cast
      constructor <;> linarith
    · split
      · constructor <;> linarith
      · push_cast
        constructor <;> linarith

/-- `halfEven` leaves an integer. -/
theorem halfEven_intCast (n : Int) : halfEven n = n := by
  have hhalf : (n : Rat) - ⌊(n : Rat)⌋ < 1 / 2 := by
    rw [Int.floor_intCast, sub_self]
    norm_num
  rw [halfEven, if_pos hhalf, Int.floor_intCast]

/-! ## To a unit -/

/-- The nearest multiple of a unit. -/
def toUnit (unit x : Rat) : Rat := halfEven (x / unit) * unit

/-- `toUnit` is off by at most half a unit. -/
theorem abs_toUnit_sub_le {unit : Rat} (hunit : 0 < unit) (x : Rat) :
    |toUnit unit x - x| ≤ unit / 2 := by
  have hhalf := abs_halfEven_sub_le (x / unit)
  have heq : toUnit unit x - x = (halfEven (x / unit) - x / unit) * unit := by
    unfold toUnit
    field_simp
  rw [heq, abs_mul, abs_of_pos hunit]
  calc |(halfEven (x / unit) : Rat) - x / unit| * unit ≤ 1 / 2 * unit := by gcongr
    _ = unit / 2 := by ring

/-! ## To the nearest binary64 number -/

/-- The unit of the numbers as large as `x`, which have 53 bits. None is smaller than the
    smallest of all. -/
def binaryUnit (x : Rat) : Rat := 2 ^ max (Int.log 2 |x| - 52) (-1074)

/-- The nearest number with 53 bits. -/
def nearest (x : Rat) : Rat := toUnit (binaryUnit x) x

/-- `binaryUnit` is above zero. -/
theorem binaryUnit_pos (x : Rat) : 0 < binaryUnit x := by
  exact zpow_pos (by norm_num) _

/-- Either `binaryUnit` is whole, or it divides every whole number. -/
theorem binaryUnit_cases (x : Rat) :
    (∃ n : Int, binaryUnit x = n) ∨ ∃ n : Int, n * binaryUnit x = 1 := by
  unfold binaryUnit
  rcases Int.le_total 0 (max (Int.log 2 |x| - 52) (-1074)) with hle | hle
  · obtain ⟨k, hk⟩ := Int.eq_ofNat_of_zero_le hle
    refine .inl ⟨2 ^ k, ?_⟩
    rw [hk, zpow_natCast]
    norm_cast
  · obtain ⟨k, hk⟩ := Int.exists_eq_neg_ofNat hle
    refine .inr ⟨2 ^ k, ?_⟩
    rw [hk, zpow_neg, zpow_natCast]
    push_cast
    exact mul_inv_cancel₀ (by positivity)

/-- `nearest` goes below a number, ceiling and all, only to a whole number. -/
theorem nearest_whole (h : (⌈nearest x⌉ : Rat) < x) : ∃ n : Int, nearest x = n := by
  rcases binaryUnit_cases x with ⟨n, hn⟩ | ⟨n, hn⟩
  -- Every number of the size is whole
  · refine ⟨halfEven (x / binaryUnit x) * n, ?_⟩
    rw [nearest, toUnit, hn]
    push_cast
    rfl
  · -- The ceiling is a number of the size too, and lies between the two.
    have hunit := binaryUnit_pos x
    have herror : |nearest x - x| ≤ binaryUnit x / 2 := abs_toUnit_sub_le hunit x
    rw [abs_le] at herror
    have hle := Int.le_ceil (nearest x)
    obtain ⟨m, hm⟩ : ∃ m : Int, nearest x = m * binaryUnit x := ⟨_, rfl⟩
    generalize ⌈nearest x⌉ = c at h hle
    have hc : (c : Rat) = (c * n : Int) * binaryUnit x := by
      push_cast
      rw [mul_assoc, hn, mul_one]
    rcases eq_or_lt_of_le hle with heq | hlt
    · exact ⟨c, heq⟩
    · exfalso
      -- Between the two there would be a whole step, which is more than rounding is off by
      have hsteps : m + 1 ≤ c * n := by
        rw [hc, hm, mul_lt_mul_iff_left₀ hunit, Int.cast_lt] at hlt
        exact hlt
      have hfar : nearest x + binaryUnit x ≤ c := by
        have hcast : ((m + 1 : Int) : Rat) ≤ (c * n : Int) := Int.cast_le.mpr hsteps
        calc nearest x + binaryUnit x = ((m + 1 : Int) : Rat) * binaryUnit x := by
              rw [hm]
              push_cast
              ring
          _ ≤ (c * n : Int) * binaryUnit x := by gcongr
          _ = c := hc.symm
      linarith

end Rounding
