import Calculator.Decimal
import Calculator.Proofs.Decimal.Literal
import Calculator.Proofs.Double.Nearest

/-!
# Decimals are read back

A decimal is written with digits and at most one point, so it is a literal,
and it is read with the coefficient and the places it was written from. Its
value is the double nearest to it: a decimal that is cut off as tiny is
nearest to zero.
-/

namespace Calculator

-- Powers of natural numbers are those of the core library.
attribute [local instance (2000)] instPowNat

namespace Decimal

/-! ## The digits of a decimal -/

theorem ten_pow_pos (places : Nat) : 0 < 10 ^ places :=
  Nat.pow_pos (by decide)

theorem fraction_lt (d : Decimal) : d.fraction < 10 ^ d.places :=
  Nat.mod_lt _ (ten_pow_pos d.places)

theorem isDigit_of_mem_fractionDigits (d : Decimal) :
    ∀ c ∈ d.fractionDigits, c.isDigit = true := by
  intro c hc
  rcases List.mem_append.mp hc with hzero | hdigit
  · rw [List.eq_of_mem_replicate hzero]
    rfl
  · exact Nat.isDigit_of_mem_toDigits (by decide) (by decide) hdigit

/-- There are as many digits after the point as there are places. -/
theorem length_fractionDigits {d : Decimal} (h : d.places ≠ 0) :
    d.fractionDigits.length = d.places := by
  have hfits : (Nat.toDigits 10 d.fraction).length ≤ d.places :=
    (Nat.length_toDigits_le_iff (by decide) (Nat.pos_of_ne_zero h)).mpr
      d.fraction_lt
  rw [fractionDigits, List.length_leftpad]
  omega

/-- Leading zeros do not count. -/
theorem ofDigitChars_fractionDigits (d : Decimal) (n : Nat) :
    Nat.ofDigitChars 10 d.fractionDigits n
      = 10 ^ d.fractionDigits.length * n + d.fraction := by
  rw [Nat.ofDigitChars_eq_ofDigitChars_zero, fractionDigits, List.leftpad,
    Nat.ofDigitChars_append, Nat.ofDigitChars_replicate_zero, Nat.mul_zero,
    Nat.ofDigitChars_ten_toDigits]

/-- All digits, without the point, spell the coefficient. -/
theorem ofDigitChars_digits {d : Decimal} (h : d.places ≠ 0) :
    Nat.ofDigitChars 10 (Nat.toDigits 10 d.whole ++ d.fractionDigits) 0
      = d.coefficient := by
  rw [Nat.ofDigitChars_append, Nat.ofDigitChars_ten_toDigits,
    ofDigitChars_fractionDigits, length_fractionDigits h]
  exact Nat.div_add_mod d.coefficient (10 ^ d.places)

/-! ## One more place -/

theorem leftpad_append_singleton {α : Type} (a x : α) (n : Nat) (xs : List α) :
    (xs ++ [x]).leftpad (n + 1) a = xs.leftpad n a ++ [x] := by
  simp [List.leftpad]

/-- With its leading zeros a number ends in its last digit. -/
theorem leftpad_toDigits_succ {places : Nat} (h : places ≠ 0) (n : Nat) :
    (Nat.toDigits 10 n).leftpad (places + 1) '0'
      = (Nat.toDigits 10 (n / 10)).leftpad places '0' ++ [(n % 10).digitChar] := by
  by_cases hlt : n < 10
  · -- the zero in front of a single digit is one of those filled in
    obtain ⟨places, rfl⟩ := Nat.exists_eq_succ_of_ne_zero h
    rw [Nat.toDigits_of_lt_base hlt, Nat.div_eq_of_lt hlt, Nat.mod_eq_of_lt hlt]
    show List.replicate (places + 1) '0' ++ [n.digitChar]
      = List.replicate places '0' ++ ['0'] ++ [n.digitChar]
    rw [List.replicate_succ']
  · rw [Nat.toDigits_of_base_le (by decide) (by omega), leftpad_append_singleton]

theorem whole_succ (coefficient places : Nat) :
    whole ⟨coefficient, places + 1⟩ = whole ⟨coefficient / 10, places⟩ := by
  rw [whole, whole, Nat.div_div_eq_div_mul, Nat.pow_succ']

/-- With one more place comes one more digit. -/
theorem fractionDigits_succ (coefficient places : Nat) :
    fractionDigits ⟨coefficient, places + 1⟩
      = (if places = 0 then [] else fractionDigits ⟨coefficient / 10, places⟩)
        ++ [(coefficient % 10).digitChar] := by
  have hdiv : fraction ⟨coefficient, places + 1⟩ / 10
      = fraction ⟨coefficient / 10, places⟩ := by
    rw [fraction, fraction, Nat.pow_succ', Nat.mod_mul_right_div_self]
  have hmod : fraction ⟨coefficient, places + 1⟩ % 10 = coefficient % 10 := by
    rw [fraction, Nat.pow_succ', Nat.mod_mul_right_mod]
  split
  · rename_i h
    subst h
    have hlt : fraction ⟨coefficient, 1⟩ < 10 := fraction_lt _
    rw [fractionDigits, Nat.toDigits_of_lt_base hlt, ← hmod, Nat.mod_eq_of_lt hlt]
    rfl
  · rename_i h
    rw [fractionDigits, leftpad_toDigits_succ h, hdiv, hmod, fractionDigits]

/-- The last decimal is the last digit of the coefficient. -/
theorem exists_fractionDigits_eq_append {d : Decimal} (h : d.places ≠ 0) :
    ∃ front, d.fractionDigits = front ++ [(d.coefficient % 10).digitChar] := by
  obtain ⟨coefficient, _ | places⟩ := d
  · exact absurd rfl h
  · exact ⟨_, fractionDigits_succ coefficient places⟩

/-! ## Reading a decimal -/

theorem isDigit_of_mem_whole (d : Decimal) :
    ∀ c ∈ Nat.toDigits 10 d.whole, c.isDigit = true :=
  fun _ hc => Nat.isDigit_of_mem_toDigits (by decide) (by decide) hc

theorem numerals_chars (d : Decimal) : Numerals d.chars := by
  intro c hc
  rw [chars] at hc
  rcases List.mem_append.mp hc with hc | hc
  · exact .inl (d.isDigit_of_mem_whole c hc)
  · split at hc
    · cases hc
    · rcases List.mem_cons.mp hc with rfl | hc
      · exact .inr rfl
      · exact .inl (d.isDigit_of_mem_fractionDigits c hc)

/-- A decimal is read with its own coefficient and places. -/
theorem unsigned?_chars (d : Decimal) :
    Literal.unsigned? d.chars = some (d.coefficient, -(d.places : Int)) := by
  have hwhole := d.isDigit_of_mem_whole
  have hne : Nat.toDigits 10 d.whole ≠ [] := Nat.toDigits_ne_nil
  rw [chars]
  by_cases h : d.places = 0
  · rw [if_pos h, List.append_nil, Literal.unsigned?_digits hwhole, if_neg hne,
      Nat.ofDigitChars_ten_toDigits, whole, h, Nat.pow_zero, Nat.div_one]
    rfl
  · rw [if_neg h, Literal.unsigned?_point hwhole d.isDigit_of_mem_fractionDigits,
      if_neg (fun hnil => hne hnil.1), ofDigitChars_digits h,
      length_fractionDigits h]

theorem exists_sign (d : Decimal) (negative : Bool) :
    ∃ sign, d.signedChars negative = sign ++ d.chars ∧
      (sign = [] ∨ sign = ['-']) ∧ decide (sign = ['-']) = negative := by
  cases negative with
  | false => exact ⟨[], rfl, .inl rfl, rfl⟩
  | true => exact ⟨['-'], rfl, .inr rfl, rfl⟩

/-- A written decimal is a literal. -/
theorem isLiteral_signedChars (d : Decimal) (negative : Bool) :
    IsLiteral (d.signedChars negative) := by
  obtain ⟨sign, hchars, hsign, _⟩ := d.exists_sign negative
  refine ⟨sign, d.chars, hchars, hsign, d.numerals_chars, ?_⟩
  by_contra hspells
  have hnone := (Literal.unsigned?_eq_none_iff d.numerals_chars).mpr hspells
  rw [d.unsigned?_chars] at hnone
  cases hnone

/-- A written decimal is read as the number it was written from. -/
theorem ofChars?_signedChars (d : Decimal) (negative : Bool) :
    Literal.ofChars? (d.signedChars negative)
      = some (.number negative d.coefficient (-(d.places : Int))) := by
  obtain ⟨sign, hchars, hsign, rfl⟩ := d.exists_sign negative
  rw [hchars, Literal.ofChars?_sign hsign d.numerals_chars, d.unsigned?_chars]
  rfl

end Decimal

/-! ## The value of a decimal -/

namespace Literal

/-- What is cut off as tiny is less than half a unit. -/
theorem lt_of_isTiny {digits places : Nat} (h : isTiny digits places = true) :
    2 * (digits * Double.unitsPerOne) < 10 ^ places := by
  have hplaces : digits.log2 + 1076 ≤ 3 * places := of_decide_eq_true h
  have hdigits : digits < 2 ^ (digits.log2 + 1) := Nat.lt_log2_self
  calc 2 * (digits * Double.unitsPerOne)
      = digits * (2 * Double.unitsPerOne) := Nat.mul_left_comm _ _ _
    _ < 2 ^ (digits.log2 + 1) * (2 * Double.unitsPerOne) :=
        Nat.mul_lt_mul_of_pos_right hdigits
          (Nat.mul_pos (by decide) Double.unitsPerOne_pos)
    _ = 2 ^ (digits.log2 + 1 + (Double.unitExponent + 1)) := by
        rw [Double.unitsPerOne, ← Nat.pow_succ', ← Nat.pow_add]
    _ ≤ 2 ^ (3 * places) := Nat.pow_le_pow_right (by decide) (by omega)
    _ = 8 ^ places := Nat.pow_mul 2 3 places
    _ ≤ 10 ^ places := Nat.pow_le_pow_left (by decide) places

/-- The value of a decimal is the double nearest to it. -/
theorem toFloat_decimal (negative : Bool) (coefficient places : Nat) :
    (number negative coefficient (-(places : Int))).toFloat
      = Double.nearest negative coefficient (10 ^ places) := by
  cases places with
  | zero =>
      show (if coefficient = 0 then Double.ofCode negative 0
        else Double.nearest negative (coefficient * 10 ^ 0) 1) = _
      split
      · rename_i hzero
        rw [hzero, Double.nearest_eq_zero]
        rw [Nat.zero_mul]
        decide
      · rw [Nat.pow_zero, Nat.mul_one]
  | succ n =>
      show (if isTiny coefficient (n + 1) then Double.ofCode negative 0
        else Double.nearest negative coefficient (10 ^ (n + 1))) = _
      split
      · rename_i htiny
        rw [Double.nearest_eq_zero _ (lt_of_isTiny htiny)]
      · rfl

end Literal

end Calculator
