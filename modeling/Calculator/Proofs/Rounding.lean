import Calculator.Rounding
import Mathlib.Data.Nat.Dist

/-!
# The nearest integer to a quotient

A quotient is rounded to an integer that is at most half a unit away from it,
and to an even one if the distance is half a unit. No other integer is as
near, except for a tie, and no other integer has these two properties.
Distances are taken between the multiples of the denominator and the
numerator, so they are natural numbers.
-/

namespace Calculator

/-! ## Bounds -/

theorem roundHalfEven_le_of_le {num den m : Nat} (hden : 0 < den)
    (h : num ≤ m * den) : roundHalfEven num den ≤ m := by
  have habove := roundHalfEven_le num den
  by_contra hlt
  have hnext := Nat.mul_le_mul_right den (Nat.lt_of_not_le hlt)
  rw [Nat.succ_mul] at hnext
  omega

theorem le_roundHalfEven_of_le {num den m : Nat} (hden : 0 < den)
    (h : m * den ≤ num) : m ≤ roundHalfEven num den := by
  have hbelow := le_roundHalfEven hden num
  by_contra hlt
  have hnext := Nat.mul_le_mul_right den (Nat.lt_of_not_le hlt)
  rw [Nat.succ_mul] at hnext
  omega

/-! ## Distances -/

theorem two_mul_dist_roundHalfEven {den : Nat} (hden : 0 < den) (num : Nat) :
    2 * Nat.dist (roundHalfEven num den * den) num ≤ den := by
  have habove := roundHalfEven_le num den
  have hbelow := le_roundHalfEven hden num
  unfold Nat.dist
  omega

theorem roundHalfEven_even {num den : Nat} (hden : 0 < den)
    (h : 2 * Nat.dist (roundHalfEven num den * den) num = den) :
    roundHalfEven num den % 2 = 0 := by
  have hdiv := Nat.div_add_mod' num den
  have hmod := Nat.mod_lt num hden
  apply roundHalfEven_even_of_tie
  unfold roundHalfEven Nat.dist at h
  split at h
  · omega
  · split at h
    · rw [Nat.add_mul] at h
      omega
    · omega

theorem dist_mul_le_dist_add_dist (k m num den : Nat) :
    Nat.dist k m * den ≤ Nat.dist (k * den) num + Nat.dist (m * den) num := by
  have htriangle := Nat.dist.triangle_inequality (k * den) num (m * den)
  rwa [Nat.dist_mul_right, Nat.dist_comm num] at htriangle

/-- Different multiples are at least one denominator apart. -/
theorem le_dist_add_dist {k m : Nat} (hne : k ≠ m) (num den : Nat) :
    den ≤ Nat.dist (k * den) num + Nat.dist (m * den) num :=
  Nat.le_trans (Nat.le_mul_of_pos_left den (Nat.dist_pos_of_ne hne))
    (dist_mul_le_dist_add_dist k m num den)

/-- No integer is nearer than the rounded quotient. -/
theorem dist_roundHalfEven_le {den : Nat} (hden : 0 < den) (num m : Nat) :
    Nat.dist (roundHalfEven num den * den) num ≤ Nat.dist (m * den) num := by
  by_cases hne : roundHalfEven num den = m
  · rw [hne]
  · have hhalf := two_mul_dist_roundHalfEven hden num
    have hapart := le_dist_add_dist hne num den
    omega

/-- If another integer is as near, the rounded quotient is even. -/
theorem roundHalfEven_even_of_dist_eq {num den m : Nat} (hden : 0 < den)
    (hne : m ≠ roundHalfEven num den)
    (h : Nat.dist (m * den) num = Nat.dist (roundHalfEven num den * den) num) :
    roundHalfEven num den % 2 = 0 := by
  have hhalf := two_mul_dist_roundHalfEven hden num
  have hapart := le_dist_add_dist hne num den
  exact roundHalfEven_even hden (by omega)

/-- The rounded quotient is the only integer at most half a unit away, the
even one if there are two. -/
theorem roundHalfEven_eq {num den k : Nat} (hden : 0 < den)
    (hhalf : 2 * Nat.dist (k * den) num ≤ den)
    (htie : 2 * Nat.dist (k * den) num = den → k % 2 = 0) :
    roundHalfEven num den = k := by
  by_contra hne
  have hhalf' := two_mul_dist_roundHalfEven hden num
  have hapart := le_dist_add_dist hne num den
  have heven : k % 2 = 0 := htie (by omega)
  have heven' : roundHalfEven num den % 2 = 0 :=
    roundHalfEven_even hden (by omega)
  -- both are half a unit away, so only one unit apart
  have hone : Nat.dist (roundHalfEven num den) k ≤ 1 := by
    apply Nat.le_of_mul_le_mul_right _ hden
    have hle := dist_mul_le_dist_add_dist (roundHalfEven num den) k num den
    omega
  unfold Nat.dist at hone
  omega

/-- What is at least as near to the rounded quotient as the quotient is
rounded to the same integer. -/
theorem roundHalfEven_eq_of_nearer {num num' den : Nat} (hden : 0 < den)
    (h : Nat.dist (roundHalfEven num den * den) num'
      ≤ Nat.dist (roundHalfEven num den * den) num) :
    roundHalfEven num' den = roundHalfEven num den := by
  have hhalf := two_mul_dist_roundHalfEven hden num
  apply roundHalfEven_eq hden (by omega)
  intro htie
  exact roundHalfEven_even hden (by omega)

end Calculator
