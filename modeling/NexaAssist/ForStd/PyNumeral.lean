import NexaAssist.ForStd.PyStr

/-!
# Whole numbers in Python strings

`str` of an `int`: two numbers that are written alike are one, and none is written with
anything but digits and a minus sign.
-/

namespace PyJson

/-- `ofString` gives two texts two lists of code points. -/
theorem PyStr.ofString_injective {s t : String} (h : PyStr.ofString s = PyStr.ofString t) :
    s = t := by
  apply String.ext
  refine (List.map_inj_right fun c d hcd => ?_).mp h
  have hlt (c : Char) : c.toNat < 0x110000 := by
    have hvalid : c.toNat.isValidChar := c.valid
    unfold Nat.isValidChar at hvalid
    omega
  have hval := congrArg Fin.val hcd
  simp only [Fin.ofNat, Nat.mod_eq_of_lt (hlt _)] at hval
  exact Char.toNat_inj.mp hval

/-- `ofString` gives the same just for the same text. -/
@[simp]
theorem PyStr.ofString_inj {s t : String} : PyStr.ofString s = PyStr.ofString t ↔ s = t :=
  ⟨PyStr.ofString_injective, congrArg PyStr.ofString⟩

/-- The digits of a number tell which it is. -/
theorem repr_nat_injective {m n : Nat} (h : m.repr = n.repr) : m = n := by
  have hdigits : Nat.toDigits 10 m = Nat.toDigits 10 n := by
    rw [← Nat.toList_repr, ← Nat.toList_repr, h]
  rw [← Nat.ofDigitChars_ten_toDigits (n := m), hdigits, Nat.ofDigitChars_ten_toDigits]

/-- Two natural numbers are written differently. -/
theorem toString_nat_injective {m n : Nat} (h : toString m = toString n) : m = n :=
  repr_nat_injective h

/-- A natural number is written in digits. -/
theorem isDigit_of_mem_repr {n : Nat} {c : Char} (h : c ∈ n.repr.toList) : c.isDigit = true := by
  rw [Nat.toList_repr] at h
  exact Nat.isDigit_of_mem_toDigits (by omega) (by omega) h

/-- A number of one sign is not written like one of the other. -/
theorem minus_repr_ne (m n : Nat) : "-" ++ m.repr ≠ n.repr := by
  intro h
  have hminus : '-' ∈ n.repr.toList := by rw [← h]; simp
  exact absurd (isDigit_of_mem_repr hminus) (by decide)

/-- Two integers are written differently. -/
theorem toString_int_injective {a b : Int} (h : toString a = toString b) : a = b := by
  rw [Int.toString_eq_repr, Int.toString_eq_repr, Int.repr_eq_if, Int.repr_eq_if] at h
  split at h
  · split at h
    · have := repr_nat_injective h
      omega
    · exact absurd h.symm (minus_repr_ne _ _)
  · split at h
    · exact absurd h (minus_repr_ne _ _)
    · have := repr_nat_injective (String.ext (by simpa using congrArg String.toList h))
      omega

/-- A number is written with digits, after a minus sign perhaps. -/
theorem mem_toString_int {a : Int} {c : Char} (h : c ∈ (toString a).toList) :
    c.isDigit = true ∨ c = '-' := by
  rw [Int.toString_eq_repr, Int.repr_eq_if] at h
  split at h
  · exact .inl (isDigit_of_mem_repr h)
  · rw [String.toList_append, List.mem_append] at h
    obtain h | h := h
    · exact .inr (by simpa using h)
    · exact .inl (isDigit_of_mem_repr h)

end PyJson
