/-!
# Rounding a quotient

The natural number nearest to a quotient, and the even one of two that are
equally near. The quotient is given by its two terms, so nothing is lost
before the rounding.
-/

namespace Calculator

/-- The natural number nearest to `num / den`; a tie goes to the even one. -/
def roundHalfEven (num den : Nat) : Nat :=
  if 2 * (num % den) < den then num / den
  else if den < 2 * (num % den) then num / den + 1
  else num / den + num / den % 2

/-- The rounded quotient is at most half a unit above the quotient. -/
theorem roundHalfEven_le (num den : Nat) :
    2 * (roundHalfEven num den * den) ≤ 2 * num + den := by
  have hdiv := Nat.div_add_mod' num den
  unfold roundHalfEven
  split
  · omega
  · split
    · rw [Nat.add_mul]
      omega
    · rcases Nat.mod_two_eq_zero_or_one (num / den) with h | h <;>
        rw [h, Nat.add_mul] <;> omega

/-- The rounded quotient is at most half a unit below the quotient. -/
theorem le_roundHalfEven {den : Nat} (hden : 0 < den) (num : Nat) :
    2 * num ≤ 2 * (roundHalfEven num den * den) + den := by
  have hdiv := Nat.div_add_mod' num den
  have hmod := Nat.mod_lt num hden
  unfold roundHalfEven
  split
  · omega
  · split
    · rw [Nat.add_mul]
      omega
    · rcases Nat.mod_two_eq_zero_or_one (num / den) with h | h <;>
        rw [h, Nat.add_mul] <;> omega

/-- A quotient half-way between two integers is rounded to an even one. -/
theorem roundHalfEven_even_of_tie {num den : Nat}
    (h : 2 * (num % den) = den) : roundHalfEven num den % 2 = 0 := by
  unfold roundHalfEven
  rw [if_neg (by omega), if_neg (by omega)]
  omega

/-- An integer is not changed. -/
theorem roundHalfEven_mul_left {den : Nat} (hden : 0 < den) (k : Nat) :
    roundHalfEven (k * den) den = k := by
  unfold roundHalfEven
  rw [Nat.mul_mod_left, if_pos (by omega), Nat.mul_div_cancel _ hden]

end Calculator
