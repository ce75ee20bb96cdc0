import Calculator.Proofs.Rounding
import Mathlib.Algebra.Order.Field.Basic
import Mathlib.Algebra.Order.Field.Rat
import Mathlib.Algebra.Ring.Int.Parity
import Mathlib.Tactic.Linarith
import Mathlib.Tactic.LinearCombination
import Mathlib.Tactic.Ring

/-!
# Rounding to the multiples of a step

A number is rounded to the multiple of a step that is nearest to it, and of two
that are equally near to the even one. A multiple at most half a step away is
nearest, since any two are at least a step apart; half-way between two that are
even lies a third, so the number determines the multiple. The rounded quotient
of natural numbers is the one for the quotient.
-/

namespace Calculator

/-- The number `q` is rounded to the `k`-th multiple of the step: no multiple
is nearer, and if another one is as near, then `k` is even. -/
structure RoundsTo (step q : ℚ) (k : ℤ) : Prop where
  distance_le : ∀ m : ℤ, |q - k * step| ≤ |q - m * step|
  even_of_tie : ∀ m : ℤ, m ≠ k → |q - m * step| = |q - k * step| → Even k

/-- Different multiples are at least one step apart. -/
theorem step_le_add {step : ℚ} (hstep : 0 < step) {k m : ℤ} (hne : m ≠ k) (q : ℚ) :
    step ≤ |q - k * step| + |q - m * step| := by
  have hone : (1 : ℚ) ≤ |(m : ℚ) - k| := by
    exact_mod_cast Int.one_le_abs (sub_ne_zero.mpr hne)
  calc step ≤ |(m : ℚ) - k| * step := le_mul_of_one_le_left hstep.le hone
    _ = |((m : ℚ) - k) * step| := by rw [abs_mul, abs_of_pos hstep]
    _ = |(q - k * step) - (q - m * step)| := by congr 1; ring
    _ ≤ |q - k * step| + |q - m * step| := abs_sub _ _

namespace RoundsTo

variable {step q : ℚ} {k l : ℤ}

/-- At most half a step away there is no other multiple, except for a tie. -/
theorem of_half (hstep : 0 < step) (hhalf : 2 * |q - k * step| ≤ step)
    (htie : 2 * |q - k * step| = step → Even k) : RoundsTo step q k where
  distance_le m := by
    by_cases hne : m = k
    · rw [hne]
    · have hapart := step_le_add hstep hne q
      linarith
  even_of_tie m hne heq := by
    have hapart := step_le_add hstep hne q
    exact htie (by linarith)

theorem neg (h : RoundsTo step q k) : RoundsTo step (-q) (-k) := by
  have hmirror : ∀ m : ℤ, |-q - m * step| = |q - (-m : ℤ) * step| := by
    intro m
    rw [← abs_neg]
    congr 1
    push_cast
    ring
  constructor
  · intro m
    rw [hmirror, hmirror, neg_neg]
    exact h.distance_le (-m)
  · intro m hne heq
    rw [hmirror, hmirror, neg_neg] at heq
    exact (h.even_of_tie (-m) (fun hm => hne (neg_eq_iff_eq_neg.mp hm)) heq).neg

/-- A number is rounded to one multiple only. -/
theorem unique (hstep : 0 < step) (hk : RoundsTo step q k) (hl : RoundsTo step q l) :
    k = l := by
  by_contra hne
  have heq : |q - k * step| = |q - l * step| :=
    le_antisymm (hk.distance_le l) (hl.distance_le k)
  obtain ⟨m, hm⟩ := (hk.even_of_tie l (Ne.symm hne) heq.symm).add
    (hl.even_of_tie k hne heq)
  have hmcast : (k : ℚ) + l = m + m := by exact_mod_cast hm
  rcases abs_eq_abs.mp heq with hsame | hopposite
  · have hmul : (k : ℚ) * step = l * step := by linarith
    exact hne (by exact_mod_cast mul_right_cancel₀ hstep.ne' hmul)
  · -- the number is half-way between the two, so the multiple there is nearer
    have hmiddle : q - m * step = 0 := by linear_combination hopposite / 2 + step / 2 * hmcast
    have hzero : |q - k * step| ≤ 0 := by
      rw [← abs_zero, ← hmiddle]
      exact hk.distance_le m
    have hmul : (k : ℚ) * step = l * step := by
      have hk0 := abs_nonpos_iff.mp hzero
      linarith
    exact hne (by exact_mod_cast mul_right_cancel₀ hstep.ne' hmul)

end RoundsTo

/-! ## Quotients of natural numbers -/

theorem cast_dist (m n : Nat) : (Nat.dist m n : ℚ) = |(m : ℚ) - n| := by
  rcases Nat.le_total m n with h | h
  · rw [Nat.dist_eq_sub_of_le h, Nat.cast_sub h, abs_sub_comm,
      abs_of_nonneg (sub_nonneg.mpr (Nat.cast_le.mpr h))]
  · rw [Nat.dist_eq_sub_of_le_right h, Nat.cast_sub h,
      abs_of_nonneg (sub_nonneg.mpr (Nat.cast_le.mpr h))]

theorem abs_div_sub {den : ℚ} (hden : 0 < den) (num r : ℚ) :
    |num / den - r| = |r * den - num| / den := by
  rw [abs_sub_comm, sub_div' hden.ne', abs_div, abs_of_pos hden]

/-- The rounded quotient is the one of the steps for the quotient of a step. -/
theorem roundsTo_roundHalfEven {step : ℚ} (hstep : 0 < step) {den : Nat} (hden : 0 < den)
    (num : Nat) : RoundsTo step (num / den * step) (roundHalfEven num den : Nat) := by
  have hdenpos : (0 : ℚ) < den := Nat.cast_pos.mpr hden
  have hpart : 0 < step / den := div_pos hstep hdenpos
  have hwhole : (den : ℚ) * (step / den) = step := mul_div_cancel₀ step hdenpos.ne'
  have htwice : 2 * |(num / den * step : ℚ) - ((roundHalfEven num den : Nat) : ℤ) * step|
      = (2 * Nat.dist (roundHalfEven num den * den) num : Nat) * (step / den) := by
    rw [← sub_mul, abs_mul, abs_of_pos hstep, Int.cast_natCast, abs_div_sub hdenpos,
      Nat.cast_mul, cast_dist, Nat.cast_mul]
    ring
  apply RoundsTo.of_half hstep
  · have hhalf : ((2 * Nat.dist (roundHalfEven num den * den) num : Nat) : ℚ) ≤ den :=
      Nat.cast_le.mpr (two_mul_dist_roundHalfEven hden num)
    rw [htwice]
    exact (mul_le_mul_of_nonneg_right hhalf hpart.le).trans_eq hwhole
  · intro htie
    have hhalf := mul_right_cancel₀ hpart.ne' (htwice.symm.trans (htie.trans hwhole.symm))
    have heven := roundHalfEven_even hden (Nat.cast_injective hhalf)
    exact (Int.even_coe_nat _).mpr (Nat.even_iff.mpr heven)

end Calculator
