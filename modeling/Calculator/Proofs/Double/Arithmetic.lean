import Calculator.Proofs.Double.Overflow
import Calculator.Proofs.Rpn.Forest

/-!
# Operators on finite doubles

The result of an operator on two finite doubles is a finite double, or it is one of
the infinities, and then the exact result lies at the bound of the finite doubles or
beyond. It is never the double that is no number: that would take a division of zero
by zero, and the evaluator divides by no zero.
-/

namespace Calculator

namespace Double

open Float.Model
open Float.Model.UnpackedFloat

-- Powers of natural numbers are those of the core library.
attribute [local instance (2000)] instPowNat

/-! ## Finite doubles taken apart -/

/-- `Unpacks q u`: a finite double that stands for `q` may be taken apart to `u`. The
exponent is between those of the first and the last binade, and the mantissa has all
its bits except in the first one. -/
inductive Unpacks : ℚ → UnpackedFloat → Prop where
  | zero (sign : Sign) : Unpacks 0 (.zero sign)
  | finite (sign : Sign) {m : Nat} {e : Int} (hm : 0 < m) (hlow : -1074 ≤ e)
      (hhigh : e ≤ 971) (hfull : e = -1074 ∨ 52 ≤ m.log2) :
      Unpacks ((sign.apply m : Int) * 2 ^ e) (.finite sign m e hm)

theorem unpacks_number {v : Float} (hv : v.isFinite = true) :
    Unpacks (number v) v.toModel.unpack := by
  rcases exists_unpack hv with
    ⟨_, sign, hunpack⟩ | ⟨m, k, e, hm, hunpack, he, _, hfull, hk⟩
  · rw [number, hunpack]
    exact .zero sign
  · simp only [unitExponent] at he
    rw [number, hunpack]
    refine .finite _ hm (by omega) (by omega) (hfull.imp ?_ ?_)
    · intro hzero
      omega
    · intro hbits
      exact (Nat.le_log2 (Nat.ne_of_gt hm)).mpr hbits

theorem confined_of_le {q : ℚ} (sign : Sign) {m : Nat} {e : Int} (hm : 0 < m)
    (he : e ≤ 971) : Confined q (.finite sign m e hm) :=
  .finite sign hm fun hlarge => absurd hlarge (by omega)

/-! ## Aligned mantissas -/

/-- A signed mantissa made finer stands for the same number. -/
theorem apply_shiftLeft_mul_two_zpow (sign : Sign) (m : Nat) {e t : Int} (h : t ≤ e) :
    ((sign.apply (m <<< (e - t).toNat : Nat) : Int) : ℚ) * 2 ^ t
      = (sign.apply m : Int) * 2 ^ e := by
  have hvalue := shiftLeft_mul_two_zpow m (e - t).toNat e
  rw [Int.toNat_of_nonneg (by omega), sub_sub_cancel] at hvalue
  cases sign with
  | negative => simp only [Sign.apply, Int.cast_neg, Int.cast_natCast, neg_mul, hvalue]
  | positive => simp only [Sign.apply, Int.cast_natCast, hvalue]

/-! ## A difference is a sum -/

theorem apply_neg (sign : Sign) (n : Int) : (-sign).apply n = -sign.apply n := by
  cases sign with
  | negative => exact (neg_neg n).symm
  | positive => rfl

theorem Unpacks.neg {q : ℚ} {b : UnpackedFloat} (hb : Unpacks q b) : Unpacks (-q) b.neg := by
  cases hb with
  | zero s =>
      rw [neg_zero]
      exact .zero (-s)
  | @finite s m e hm hlow hhigh hfull =>
      rw [← neg_mul, ← Int.cast_neg, ← apply_neg]
      exact .finite (-s) hm hlow hhigh hfull

theorem Unpacks.sub_eq_add_neg {p q : ℚ} {a b : UnpackedFloat} (ha : Unpacks p a)
    (hb : Unpacks q b) : sub .binary64 a b = add .binary64 a b.neg := by
  cases ha with
  | zero s =>
      cases hb with
      | zero s' => rfl
      | finite s' _ _ _ _ => rfl
  | @finite s m e _ _ _ _ =>
      cases hb with
      | zero s' => rfl
      | @finite s' m' e' _ _ _ _ =>
          show _ = normalize .binary64 (s.apply (m <<< (e - min e e').toNat : Nat)
            + (-s').apply (m' <<< (e' - min e e').toNat : Nat)) (min e e') .positive
          rw [apply_neg]
          rfl

/-! ## The bits of products and quotients -/

theorem abs_apply_mul_two_zpow (sign : Sign) (m : Nat) (e : Int) :
    |((sign.apply m : Int) : ℚ) * 2 ^ e| = m * 2 ^ e := by
  refine abs_mul_two_zpow ?_ e
  cases sign with
  | negative => exact (abs_neg _).trans (Nat.abs_cast m)
  | positive => exact Nat.abs_cast m

theorem log2_le_log2_of_le {m n : Nat} (hm : 0 < m) (h : m ≤ n) : m.log2 ≤ n.log2 :=
  (Nat.le_log2 (Nat.ne_of_gt (Nat.lt_of_lt_of_le hm h))).mpr
    (Nat.le_trans (Nat.log2_self_le (Nat.ne_of_gt hm)) h)

/-- The mantissa of a quotient has bits enough. -/
theorem le_targetExponent_of_quotient {m m' : Nat} (hm : 0 < m) (hm' : 0 < m') {e e' t : Int}
    (ht : t ≤ e - e')
    (htarget : t ≤ Format.binary64.targetExponent (totalExponent m e - totalExponent m' e')) :
    t ≤ Format.binary64.targetExponent
      (totalExponent ((m <<< (e - e' - t).toNat) / m') t) := by
  obtain ⟨k, hk⟩ : ∃ k : Nat, (e - e' - t).toNat = k := ⟨_, rfl⟩
  rw [hk]
  rw [targetExponent_binary64, totalExponent, totalExponent] at htarget
  rw [targetExponent_binary64, totalExponent]
  by_cases hlow : t ≤ -1074
  · omega
  · have hbits : m'.log2 + 1 + 52 ≤ (m <<< k).log2 := by
      rw [log2_shiftLeft hm]
      omega
    have hquotient : 2 ^ fractionBits ≤ (m <<< k) / m' := by
      rw [Nat.le_div_iff_mul_le hm']
      calc 2 ^ fractionBits * m' ≤ 2 ^ fractionBits * 2 ^ (m'.log2 + 1) :=
            Nat.mul_le_mul_left _ (Nat.le_of_lt Nat.lt_log2_self)
        _ = 2 ^ (m'.log2 + 1 + fractionBits) := by
            rw [Nat.pow_add 2 (m'.log2 + 1), Nat.mul_comm]
        _ ≤ 2 ^ (m <<< k).log2 := Nat.pow_le_pow_right Nat.two_pos hbits
        _ ≤ m <<< k := Nat.log2_self_le (Nat.ne_of_gt (Nat.shiftLeft_pos_iff.mpr hm))
    have hne : (m <<< k) / m' ≠ 0 :=
      Nat.ne_of_gt (Nat.lt_of_lt_of_le (Nat.two_pow_pos _) hquotient)
    have hlog : 52 ≤ ((m <<< k) / m').log2 := (Nat.le_log2 hne).mpr hquotient
    omega

/-- What is remembered of the remainder is no more than the remainder. -/
theorem halves_quotient_mul_le (n d : Nat) :
    halves (.ofMantissaAndAccuracy (n / d) (accuracyOfFraction (n % d) d)) * d ≤ 2 * n := by
  have hn := Nat.div_add_mod n d
  have hexact : 2 * (n / d) * d ≤ 2 * n := by
    rw [Nat.mul_assoc, Nat.mul_comm (n / d)]
    omega
  have hround : d ≤ 2 * (n % d) → (2 * (n / d) + 1) * d ≤ 2 * n := by
    intro hd
    rw [Nat.add_mul, Nat.one_mul, Nat.mul_assoc, Nat.mul_comm (n / d)]
    omega
  show halves (.ofMantissaAndAccuracy (n / d)
    (if n % d = 0 then .exact else .inexact (compare (2 * (n % d)) d))) * d ≤ 2 * n
  by_cases hzero : n % d = 0
  · rw [if_pos hzero]
    exact hexact
  · rw [if_neg hzero]
    cases hcompare : compare (2 * (n % d)) d with
    | lt => exact hexact
    | eq => exact hround (Nat.le_of_eq (compare_eq_iff_eq.mp hcompare).symm)
    | gt => exact hround (Nat.le_of_lt (compare_gt_iff_gt.mp hcompare))

theorem halves_quotient_mul_two_zpow_le (m : Nat) {m' : Nat} (hm' : 0 < m') {e e' t : Int}
    (ht : t ≤ e - e') :
    halves (.ofMantissaAndAccuracy ((m <<< (e - e' - t).toNat) / m')
      (accuracyOfFraction ((m <<< (e - e' - t).toNat) % m') m')) * (2 : ℚ) ^ t
      ≤ 2 * (m * 2 ^ e / (m' * 2 ^ e')) := by
  have hvalue := shiftLeft_mul_two_zpow m (e - e' - t).toNat (e - e')
  rw [Int.toNat_of_nonneg (by omega), sub_sub_cancel] at hvalue
  have hhalves := halves_quotient_mul_le (m <<< (e - e' - t).toNat) m'
  generalize m <<< (e - e' - t).toNat = n at hvalue hhalves
  generalize halves (.ofMantissaAndAccuracy (n / m') (accuracyOfFraction (n % m') m')) = h
    at hhalves
  have hpos : (0 : ℚ) < m' := Nat.cast_pos.mpr hm'
  have hquotient : (h : ℚ) ≤ 2 * n / m' := by
    rw [le_div_iff₀ hpos]
    exact_mod_cast hhalves
  calc (h : ℚ) * 2 ^ t ≤ 2 * n / m' * 2 ^ t :=
        mul_le_mul_of_nonneg_right hquotient (zpow_nonneg zero_le_two t)
    _ = 2 * (n * 2 ^ t / m') := by ring
    _ = 2 * (m * 2 ^ e / (m' * 2 ^ e')) := by
        rw [hvalue, zpow_sub₀ two_ne_zero, mul_div_assoc' (m : ℚ), div_div, mul_comm (m' : ℚ)]

/-! ## The four operators -/

section Operators

variable {p q : ℚ} {a b : UnpackedFloat} (ha : Unpacks p a) (hb : Unpacks q b)

include ha hb

theorem confined_add : Confined (p + q) (add .binary64 a b) := by
  cases ha with
  | zero s =>
      cases hb with
      | zero s' =>
          show Confined _ (if s == s' then .zero s else .zero .positive)
          split <;> exact .zero _
      | finite s' hm' _ hhigh' _ => exact confined_of_le s' hm' hhigh'
  | @finite s m e hm _ hhigh _ =>
      cases hb with
      | zero s' => exact confined_of_le s hm hhigh
      | @finite s' m' e' hm' _ _ _ =>
          rw [← apply_shiftLeft_mul_two_zpow s m (min_le_left e e'),
            ← apply_shiftLeft_mul_two_zpow s' m' (min_le_right e e'), ← add_mul, ← Int.cast_add]
          exact confined_normalize _ .positive

theorem confined_sub : Confined (p - q) (sub .binary64 a b) := by
  rw [sub_eq_add_neg, ha.sub_eq_add_neg hb]
  exact confined_add ha hb.neg

theorem confined_mul : Confined (p * q) (mul .binary64 a b) := by
  cases ha with
  | zero s =>
      cases hb with
      | zero s' => exact .zero (s * s')
      | finite s' _ _ _ _ => exact .zero (s * s')
  | @finite s m e hm _ hhigh hfull =>
      cases hb with
      | zero s' => exact .zero (s * s')
      | @finite s' m' e' hm' _ hhigh' hfull' =>
          apply confined_roundWithAccuracy (s * s')
          · have hleft := log2_le_log2_of_le hm (Nat.le_mul_of_pos_right m hm')
            have hright := log2_le_log2_of_le hm' (Nat.le_mul_of_pos_left m' hm)
            rw [targetExponent_binary64, totalExponent]
            omega
          · rw [halves_exact_mul, abs_mul, abs_apply_mul_two_zpow, abs_apply_mul_two_zpow,
              Nat.cast_mul, zpow_add₀ two_ne_zero, mul_mul_mul_comm]

theorem confined_div (hzero : ∀ sign, b ≠ .zero sign) :
    Confined (p / q) (div .binary64 a b) := by
  cases ha with
  | zero s =>
      cases hb with
      | zero s' => exact absurd rfl (hzero s')
      | finite s' _ _ _ _ => exact .zero (s / s')
  | @finite s m e hm _ _ _ =>
      cases hb with
      | zero s' => exact absurd rfl (hzero s')
      | @finite s' m' e' hm' _ _ _ =>
          have hle := min_le_left (e - e')
            (Format.binary64.targetExponent (totalExponent m e - totalExponent m' e'))
          have htarget := min_le_right (e - e')
            (Format.binary64.targetExponent (totalExponent m e - totalExponent m' e'))
          generalize ht : min (e - e')
            (Format.binary64.targetExponent (totalExponent m e - totalExponent m' e')) = t
            at hle htarget
          have hdiv : div .binary64 (.finite s m e hm) (.finite s' m' e' hm')
              = roundWithAccuracy .binary64 (s / s') ((m <<< (e - e' - t).toNat) / m') t
                (accuracyOfFraction ((m <<< (e - e' - t).toNat) % m') m') := by
            subst ht
            rfl
          rw [hdiv]
          apply confined_roundWithAccuracy (s / s')
          · exact le_targetExponent_of_quotient hm hm' hle htarget
          · rw [abs_div, abs_apply_mul_two_zpow, abs_apply_mul_two_zpow]
            exact halves_quotient_mul_two_zpow_le m hm' hle

end Operators

/-! ## Packing -/

theorem code_of_packComponents {v : Float} {sign : Sign} {e : BitVec 11} {m : BitVec 52}
    (hv : v.toBits.toBitVec = packComponents .binary64 sign e m) :
    code v = e.toNat * 2 ^ fractionBits + m.toNat := by
  rw [code_eq, hv, unpackExponent_packComponents, unpackMantissa_packComponents]

/-- What is packed is a finite double, or an infinity where it is too large for one. -/
theorem Confined.isFinite_or {q : ℚ} {u : UnpackedFloat} (h : Confined q u) {v : Float}
    (hv : v.toBits.toBitVec = UnpackedFloat.pack .binary64 u) :
    v.isFinite = true ∨ code v = infinityCode ∧ overflowThreshold ≤ |q| := by
  rw [isFinite_iff]
  cases h with
  | zero sign =>
      left
      rw [code_of_packComponents (e := 0) (m := 0) hv]
      decide
  | @finite sign m e hm hlarge =>
      rw [pack_finite sign hm rfl] at hv
      by_cases hhigh : 2048 ≤ (e + (1023 : Nat) + (52 : Nat)).toNat + 1
      · rw [if_pos hhigh] at hv
        refine .inr ⟨?_, hlarge (by omega)⟩
        rw [code_of_packComponents (e := -1#11) (m := 0) hv]
        rfl
      · left
        rw [if_neg hhigh] at hv
        have hmantissa := (BitVec.ofNat 52 m).isLt
        by_cases hnormal : m.log2 + 1 = 53
        · rw [if_pos hnormal] at hv
          rw [code_of_packComponents hv, BitVec.toNat_ofNat]
          simp only [infinityCode, fractionBits]
          omega
        · rw [if_neg hnormal] at hv
          rw [code_of_packComponents hv]
          simp only [infinityCode, fractionBits, BitVec.toNat_zero]
          omega

end Double

/-! ## Operators -/

/-- What an operator does to the numbers that doubles stand for. -/
def Operator.exact : Operator → ℚ → ℚ → ℚ
  | .add, p, q => p + q
  | .sub, p, q => p - q
  | .mul, p, q => p * q
  | .div, p, q => p / q

/-- `o.Overflows a b v`: on finite doubles `a` and `b`, of which `b` is not a zero where it
divides, the operator gives the infinity `v`, because the exact result is too large. -/
structure Operator.Overflows (o : Operator) (a b v : Float) : Prop where
  left_finite : a.isFinite = true
  right_finite : b.isFinite = true
  divisor_ne_zero : o = .div → Double.code b ≠ 0
  result : o.apply a b = .ok v
  infinite : ∃ negative, v = Double.ofCode negative Double.infinityCode
  too_large : Double.overflowThreshold ≤ |o.exact (Double.number a) (Double.number b)|

namespace Operator

open Double

variable {o : Operator} {a b v : Float}

/-- A quotient is only computed by a divisor that is not a zero. -/
theorem apply_div_eq_ok_iff :
    Operator.div.apply a b = .ok v ↔ code b ≠ 0 ∧ v = a / b := by
  show (if b == 0 then Except.error Error.divisionByZero else .ok (a / b)) = .ok v ↔ _
  by_cases hb : (b == 0) = true
  · rw [if_pos hb]
    simp [beq_zero_iff.mp hb]
  · rw [if_neg hb]
    simp [mt beq_zero_iff.mpr hb, eq_comm]

theorem exists_confined (ha : a.isFinite = true) (hb : b.isFinite = true)
    (h : o.apply a b = .ok v) :
    ∃ u, Confined (o.exact (number a) (number b)) u ∧
      v.toBits.toBitVec = Float.Model.UnpackedFloat.pack .binary64 u := by
  have hleft := unpacks_number ha
  have hright := unpacks_number hb
  cases o with
  | add =>
      cases h
      exact ⟨_, confined_add hleft hright, rfl⟩
  | sub =>
      cases h
      exact ⟨_, confined_sub hleft hright, rfl⟩
  | mul =>
      cases h
      exact ⟨_, confined_mul hleft hright, rfl⟩
  | div =>
      obtain ⟨hne, rfl⟩ := apply_div_eq_ok_iff.mp h
      refine ⟨_, confined_div hleft hright ?_, rfl⟩
      intro sign hsign
      exact hne ((unpack_eq_zero_iff b).mp ⟨sign, hsign⟩)

/-- An operator on finite doubles gives a finite double or overflows. -/
theorem overflows_of_apply (ha : a.isFinite = true) (hb : b.isFinite = true)
    (h : o.apply a b = .ok v) (hv : v.isFinite = false) : o.Overflows a b v := by
  obtain ⟨u, hu, hpack⟩ := exists_confined ha hb h
  rcases hu.isFinite_or hpack with hfinite | ⟨hcode, hlarge⟩
  · rw [hv] at hfinite
    cases hfinite
  · refine ⟨ha, hb, ?_, h, ⟨isNegative v, ?_⟩, hlarge⟩
    · rintro rfl
      exact (apply_div_eq_ok_iff.mp h).1
    · rw [← hcode, ofCode_code (Nat.le_of_eq hcode)]

end Operator

end Calculator
