import Calculator.Proofs.Double.Finite

/-!
# Overflow

A sum, difference, product or quotient of finite doubles is computed exactly, up to
bits that are only remembered as rounded off, and then rounded. The rounding never
gives up, so the result is a number, except that its exponent may be too large for a
finite double. This only happens if the exact result lies at the bound of the finite
doubles or beyond.
-/

namespace Calculator.Double

open Float.Model
open Float.Model.UnpackedFloat

-- Powers of natural numbers are those of the core library.
attribute [local instance (2000)] instPowNat

/-! ## Mantissas and exponents -/

theorem log2_shiftLeft {m : Nat} (hm : 0 < m) (k : Nat) : (m <<< k).log2 = m.log2 + k := by
  have hne := Nat.ne_of_gt hm
  have hshift : m <<< k ≠ 0 := Nat.ne_of_gt (Nat.shiftLeft_pos_iff.mpr hm)
  rw [Nat.log2_eq_iff hshift, Nat.shiftLeft_eq, Nat.pow_add, Nat.add_right_comm, Nat.pow_add]
  exact ⟨Nat.mul_le_mul_right _ (Nat.log2_self_le hne),
    Nat.mul_lt_mul_of_pos_right Nat.lt_log2_self (Nat.two_pow_pos k)⟩

/-- A mantissa made finer stands for the same number. -/
theorem shiftLeft_mul_two_zpow (m k : Nat) (e : Int) :
    ((m <<< k : Nat) : ℚ) * 2 ^ (e - k) = m * 2 ^ e := by
  rw [Nat.shiftLeft_eq, Nat.cast_mul, cast_two_pow, mul_assoc, ← zpow_natCast,
    ← zpow_add₀ two_ne_zero, add_sub_cancel]

/-- The magnitude of a number is that of its mantissa. -/
theorem abs_mul_two_zpow {n : Int} {m : Nat} (h : |n| = m) (e : Int) :
    |(n : ℚ) * 2 ^ e| = m * 2 ^ e := by
  rw [abs_mul, abs_of_pos (zpow_pos two_pos e : (0 : ℚ) < 2 ^ e), ← Int.cast_abs, h,
    Int.cast_natCast]

theorem two_zpow_le_of_log2 {m : Nat} (hm : m ≠ 0) {e t : Int} (h : t ≤ m.log2 + e) :
    (2 : ℚ) ^ t ≤ m * 2 ^ e := by
  have hlog : ((2 ^ m.log2 : Nat) : ℚ) ≤ m := Nat.cast_le.mpr (Nat.log2_self_le hm)
  rw [cast_two_pow] at hlog
  calc (2 : ℚ) ^ t ≤ 2 ^ (m.log2 + e : Int) := zpow_le_zpow_right₀ one_le_two h
    _ = 2 ^ m.log2 * 2 ^ e := by rw [zpow_add₀ two_ne_zero, zpow_natCast]
    _ ≤ m * 2 ^ e := mul_le_mul_of_nonneg_right hlog (zpow_nonneg zero_le_two e)

/-! ## Mantissas that are cut off -/

/-- Twice a mantissa, and one more if half a unit or more has been cut off. -/
def halves (em : ExtendedMantissa) : Nat :=
  2 * em.mantissa + em.roundBit.toNat

/-- Nothing has been cut off from an exact mantissa. -/
theorem halves_exact_mul (m : Nat) (x : ℚ) :
    halves (.ofMantissaAndAccuracy m .exact) * x = 2 * (m * x) := by
  have hhalves : halves (.ofMantissaAndAccuracy m .exact) = 2 * m := rfl
  rw [hhalves, Nat.cast_mul, Nat.cast_ofNat, mul_assoc]

theorem two_mul_le_halves (m : Nat) (acc : Accuracy) :
    2 * m ≤ halves (.ofMantissaAndAccuracy m acc) := by
  cases acc with
  | exact => exact Nat.le_add_right _ _
  | inexact relation => cases relation <;> exact Nat.le_add_right _ _

theorem halves_shiftRightOne (em : ExtendedMantissa) :
    halves em.shiftRightOne = halves em / 2 := by
  obtain ⟨m, r, s⟩ := em
  have hbit : (m % 2 != 0).toNat = m % 2 := by
    rcases Nat.mod_two_eq_zero_or_one m with h | h <;> rw [h] <;> rfl
  have hround := r.toNat_lt
  simp only [halves, ExtendedMantissa.shiftRightOne, hbit]
  omega

theorem halves_shiftRight (em : ExtendedMantissa) (k : Nat) :
    halves (em >>> k) = halves em / 2 ^ k := by
  induction k with
  | zero => exact (Nat.div_one _).symm
  | succ k ih =>
      show halves (em >>> k).shiftRightOne = _
      rw [halves_shiftRightOne, ih, Nat.div_div_eq_div_mul, Nat.pow_succ]

/-- Cutting off bits makes a number no larger. -/
theorem halves_shiftRight_mul_le (em : ExtendedMantissa) (k : Nat) (e : Int) :
    halves (em >>> k) * (2 : ℚ) ^ (e + k) ≤ halves em * 2 ^ e := by
  have hcut : ((halves (em >>> k) * 2 ^ k : Nat) : ℚ) ≤ halves em := by
    rw [halves_shiftRight]
    exact Nat.cast_le.mpr (Nat.div_mul_le_self _ _)
  rw [Nat.cast_mul, cast_two_pow] at hcut
  rw [add_comm, zpow_add₀ two_ne_zero, zpow_natCast, ← mul_assoc]
  exact mul_le_mul_of_nonneg_right hcut (zpow_nonneg zero_le_two e)

/-- Rounding adds no more than half a unit. -/
theorem two_mul_roundedMantissa_le (em : ExtendedMantissa) :
    2 * em.roundedMantissa ≤ halves em + 1 := by
  obtain ⟨m, r, s⟩ := em
  cases r with
  | false =>
      cases s <;> exact Nat.le_add_right _ _
  | true =>
      cases s with
      | false =>
          show 2 * (m + m % 2) ≤ 2 * m + 1 + 1
          omega
      | true =>
          show 2 * (m + 1) ≤ 2 * m + 1 + 1
          omega

/-! ## Too large by the exponent -/

theorem targetExponent_binary64 (total : Int) :
    Format.binary64.targetExponent total = max (total - 53) (-1074) :=
  rfl

/-- The exponent after a shift to the exponent that the format asks for. -/
theorem shiftToTargetExponent_snd (m : Nat) (e : Int) (acc : Accuracy) :
    (shiftToTargetExponent .binary64 m e acc).2 = max e (max (m.log2 + e - 52) (-1074)) := by
  show e + ((max ((m.log2 : Int) + 1 + e - 53) (-1074) - e).toNat : Int) = _
  omega

theorem overflowThreshold_le : overflowThreshold ≤ 2 ^ (1024 : Int) := by
  have htop : (2 : ℚ) ^ (1024 : Int) = 2 ^ 1024 := zpow_natCast 2 1024
  rw [overflowThreshold, htop]
  exact sub_le_self _ (pow_nonneg zero_le_two 970)

theorem two_mul_overflowThreshold_eq :
    2 * overflowThreshold = 2 * 2 ^ (1024 : Int) - 2 ^ (971 : Int) := by
  have htop : (2 : ℚ) ^ (1024 : Int) = 2 ^ 1024 := zpow_natCast 2 1024
  have hstep : (2 : ℚ) ^ (971 : Int) = 2 ^ 971 := zpow_natCast 2 971
  have hhalf : (2 : ℚ) ^ 971 = 2 * 2 ^ 970 := pow_succ' 2 970
  rw [overflowThreshold, htop, hstep, hhalf, mul_sub]

section Round

variable {m : Nat} {e : Int} {acc : Accuracy} {q : ℚ}

/-- Before the rounding: the mantissa alone is too large. -/
theorem overflowThreshold_le_of_mantissa (hm : m ≠ 0) (h : 1024 ≤ m.log2 + e)
    (hq : halves (.ofMantissaAndAccuracy m acc) * 2 ^ e ≤ 2 * q) :
    overflowThreshold ≤ q := by
  have hhalves : 2 * (m * 2 ^ e) ≤ 2 * q := by
    rw [← mul_assoc]
    refine le_trans (mul_le_mul_of_nonneg_right ?_ (zpow_nonneg zero_le_two e)) hq
    exact_mod_cast two_mul_le_halves m acc
  calc overflowThreshold ≤ 2 ^ (1024 : Int) := overflowThreshold_le
    _ ≤ m * 2 ^ e := two_zpow_le_of_log2 hm h
    _ ≤ q := le_of_mul_le_mul_left hhalves two_pos

/-- By the rounding: the step is at most that of the last binade, so half of it is at
most what lies between the bound and the next power of two. -/
theorem overflowThreshold_le_of_rounded {em : ExtendedMantissa} (hm : em.roundedMantissa ≠ 0)
    (h : 1024 ≤ em.roundedMantissa.log2 + e) (he : e ≤ 971)
    (hq : halves em * 2 ^ e ≤ 2 * q) : overflowThreshold ≤ q := by
  have hvalue := two_zpow_le_of_log2 hm h
  have hstep : (2 : ℚ) ^ e ≤ 2 ^ (971 : Int) := zpow_le_zpow_right₀ one_le_two he
  have hrounded : 2 * (em.roundedMantissa * (2 : ℚ) ^ e) ≤ halves em * 2 ^ e + 2 ^ e := by
    rw [← mul_assoc, ← add_one_mul]
    refine mul_le_mul_of_nonneg_right ?_ (zpow_nonneg zero_le_two e)
    exact_mod_cast two_mul_roundedMantissa_le em
  have hbound := two_mul_overflowThreshold_eq
  linarith

/-- A result that is rounded to an exponent above those of the finite doubles lies
at their bound or beyond. -/
theorem overflowThreshold_le_of_shift
    (he : e ≤ Format.binary64.targetExponent (totalExponent m e))
    (hq : halves (.ofMantissaAndAccuracy m acc) * 2 ^ e ≤ 2 * q) {em : ExtendedMantissa}
    (hshift : em = (shiftToTargetExponent .binary64 m e acc).1) {t : Int}
    (ht : t = (shiftToTargetExponent .binary64 m e acc).2)
    (hlarge : 972 ≤ (shiftToTargetExponent .binary64 em.roundedMantissa t .exact).2) :
    overflowThreshold ≤ q := by
  rw [shiftToTargetExponent_snd] at ht hlarge
  rw [targetExponent_binary64, totalExponent] at he
  by_cases hhigh : 972 ≤ t
  · have hm : m ≠ 0 := by
      rintro rfl
      rw [Nat.log2_zero] at he ht
      omega
    exact overflowThreshold_le_of_mantissa hm (by omega) hq
  · have hm : em.roundedMantissa ≠ 0 := by
      intro hzero
      rw [hzero, Nat.log2_zero] at hlarge
      omega
    obtain ⟨k, hk⟩ : ∃ k : Nat, t = e + k := ⟨(t - e).toNat, by omega⟩
    have hem : em = ExtendedMantissa.ofMantissaAndAccuracy m acc >>> k := by
      have htarget : (Format.binary64.targetExponent (totalExponent m e) - e).toNat = k := by
        rw [targetExponent_binary64, totalExponent]
        omega
      rw [hshift, ← htarget]
      rfl
    refine overflowThreshold_le_of_rounded (e := t) hm (by omega) (by omega) ?_
    rw [hem, hk]
    exact le_trans (halves_shiftRight_mul_le _ k e) hq

/-! ## Rounding -/

/-- `Confined q u`: the result `u` is a number, and its exponent is above those of the
finite doubles only if `q` lies at their bound or beyond. -/
inductive Confined (q : ℚ) : UnpackedFloat → Prop where
  | zero (sign : Sign) : Confined q (.zero sign)
  | finite (sign : Sign) {m : Nat} {e : Int} (hm : 0 < m)
      (hlarge : 972 ≤ e → overflowThreshold ≤ |q|) : Confined q (.finite sign m e hm)

/-- Rounding keeps to what it rounds, if its bits are fine enough. -/
theorem confined_roundWithAccuracy (sign : Sign)
    (he : e ≤ Format.binary64.targetExponent (totalExponent m e))
    (hq : halves (.ofMantissaAndAccuracy m acc) * 2 ^ e ≤ 2 * |q|) :
    Confined q (roundWithAccuracy .binary64 sign m e acc) := by
  have hlarge := overflowThreshold_le_of_shift he hq rfl rfl
  generalize hlast : shiftToTargetExponent .binary64
    (shiftToTargetExponent .binary64 m e acc).1.roundedMantissa
    (shiftToTargetExponent .binary64 m e acc).2 .exact = last at hlarge
  have hround : roundWithAccuracy .binary64 sign m e acc
      = if h : last.1.mantissa = 0 then .zero sign
        else .finite sign last.1.mantissa last.2 (Nat.pos_of_ne_zero h) := by
    subst hlast
    rfl
  rw [hround]
  by_cases hzero : last.1.mantissa = 0
  · rw [dif_pos hzero]
    exact .zero sign
  · rw [dif_neg hzero]
    exact .finite sign _ hlarge

/-- An exact mantissa may be made finer before it is rounded. -/
theorem confined_round (sign : Sign) (hm : 0 < m) (hq : |q| = m * 2 ^ e) :
    Confined q (round .binary64 sign m e) := by
  obtain ⟨k, hk⟩ : ∃ k : Nat,
      (e - Format.binary64.targetExponent (totalExponent m e)).toNat = k := ⟨_, rfl⟩
  show Confined q (roundWithAccuracy .binary64 sign
    (m <<< (e - Format.binary64.targetExponent (totalExponent m e)).toNat)
    (e - (e - Format.binary64.targetExponent (totalExponent m e)).toNat) .exact)
  rw [hk]
  apply confined_roundWithAccuracy sign
  · rw [targetExponent_binary64, totalExponent] at hk ⊢
    rw [log2_shiftLeft hm]
    omega
  · rw [halves_exact_mul, shiftLeft_mul_two_zpow, hq]

/-- A sum is rounded as its magnitude. -/
theorem confined_normalize (n : Int) (zeroSign : Sign) :
    Confined (n * 2 ^ e) (normalize .binary64 n e zeroSign) := by
  show Confined _ (match compare n 0 with
    | .lt => round .binary64 .negative (-n).toNat e
    | .eq => .zero zeroSign
    | .gt => round .binary64 .positive n.toNat e)
  rcases lt_trichotomy n 0 with hneg | rfl | hpos
  · rw [compare_lt_iff_lt.mpr hneg]
    refine confined_round .negative (by omega) (abs_mul_two_zpow ?_ e)
    rw [abs_of_neg hneg, Int.toNat_of_nonneg (by omega)]
  · exact .zero zeroSign
  · rw [compare_gt_iff_gt.mpr hpos]
    refine confined_round .positive (by omega) (abs_mul_two_zpow ?_ e)
    rw [abs_of_pos hpos, Int.toNat_of_nonneg hpos.le]

end Round

end Calculator.Double
