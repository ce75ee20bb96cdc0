import Calculator.Proofs.Double.Bits
import Mathlib.Algebra.Order.Field.Basic
import Mathlib.Algebra.Order.Field.Rat
import Mathlib.Tactic.Ring
import Mathlib.Tactic.NormNum

/-!
# The number that a double stands for

A finite double stands for a rational number: mantissa times power of two, with
its sign. It is the number of its units divided by the units per one, since the
exponent of the least binade is that of the unit.
-/

namespace Calculator.Double

open Float.Model.UnpackedFloat
open Float.Model (Format UnpackedFloat)

-- Powers of natural numbers are those of the core library.
attribute [local instance (2000)] instPowNat

/-- The number that a double stands for; zero if it is not finite. -/
def number (v : Float) : ℚ :=
  match v.toModel.unpack with
  | .finite sign mantissa exponent _ => (sign.apply mantissa : ℚ) * 2 ^ exponent
  | .zero _ | .infinity _ | .notANumber => 0

/-- The sign of a double as a factor. -/
def signFactor (v : Float) : ℚ :=
  if isNegative v then -1 else 1

theorem apply_sign (v : Float) (m : Nat) :
    ((if isNegative v then Sign.negative else Sign.positive).apply m : ℚ)
      = signFactor v * m := by
  rw [signFactor]
  split <;> simp [Sign.apply]

/-! ## The unpacked parts -/

theorem unpackSign_eq_zero_iff (v : Float) :
    @unpackSign Format.binary64 v.toBits.toBitVec = 0#1 ↔ isNegative v = false := by
  have hsign := toNat_unpackSign v.toBits.toBitVec
  have hlt := v.toBits.toBitVec.isLt
  rw [UInt64.toNat_toBitVec] at hsign hlt
  rw [← BitVec.toNat_inj, hsign, isNegative, decide_eq_false_iff_not]
  simp only [signBit, BitVec.toNat_ofNat]
  omega

theorem ofBitVec_unpackSign (v : Float) :
    Sign.ofBitVec (@unpackSign Format.binary64 v.toBits.toBitVec)
      = if isNegative v then .negative else .positive := by
  rw [Sign.ofBitVec]
  cases h : isNegative v with
  | false => exact if_pos ((unpackSign_eq_zero_iff v).mpr h)
  | true =>
      refine if_neg fun hzero => ?_
      rw [(unpackSign_eq_zero_iff v).mp hzero] at h
      cases h

/-- The code is exponent and mantissa side by side. -/
theorem code_eq (v : Float) :
    code v = (@unpackExponent Format.binary64 v.toBits.toBitVec).toNat * 2 ^ fractionBits
      + (@unpackMantissa Format.binary64 v.toBits.toBitVec).toNat := by
  have hlt := v.toBits.toBitVec.isLt
  rw [toNat_unpackExponent, toNat_unpackMantissa, code]
  simp only [UInt64.toNat_toBitVec, fractionBits, signBit] at hlt ⊢
  omega

/-- A finite double is a zero, or its units are so many steps of a binade as its
mantissa says; the mantissa has all its bits except in the first binade. -/
theorem exists_unpack {v : Float} (hv : v.isFinite = true) :
    (units v = 0 ∧ ∃ sign, v.toModel.unpack = .zero sign) ∨
      ∃ m, ∃ k : Nat, ∃ e hm, v.toModel.unpack
          = .finite (if isNegative v then .negative else .positive) m e hm ∧
        e = k - unitExponent ∧ units v = m * 2 ^ k ∧
        (k = 0 ∨ 2 ^ fractionBits ≤ m) ∧ k ≤ 2045 := by
  have hcode := code_eq v
  have hm52 := (@unpackMantissa Format.binary64 v.toBits.toBitVec).isLt
  rw [isFinite_iff] at hv
  rw [units, ← ofBitVec_unpackSign]
  show (_ ∧ ∃ sign, UnpackedFloat.unpack Format.binary64 v.toBits.toBitVec = .zero sign) ∨
    ∃ m, ∃ k : Nat, ∃ e hm,
      UnpackedFloat.unpack Format.binary64 v.toBits.toBitVec = .finite _ m e hm ∧ _
  unfold UnpackedFloat.unpack
  by_cases hones : @unpackExponent Format.binary64 v.toBits.toBitVec = -1#11
  · have hinfinite : infinityCode ≤ code v := by
      rw [hcode, hones]
      exact Nat.le_add_right _ _
    exact absurd hv (Nat.not_lt.mpr hinfinite)
  · rw [if_neg hones]
    by_cases hzero : @unpackExponent Format.binary64 v.toBits.toBitVec = 0#11
    · have hsubnormal : code v = (@unpackMantissa Format.binary64 v.toBits.toBitVec).toNat := by
        rw [hcode, hzero]
        exact Nat.zero_add _
      rw [if_pos hzero, hsubnormal, unitsOfCode_of_lt hm52]
      by_cases hm : @unpackMantissa Format.binary64 v.toBits.toBitVec = 0#52
      · rw [dif_pos hm, hm]
        exact .inl ⟨rfl, _, rfl⟩
      · have hpos : 0 < (@unpackMantissa Format.binary64 v.toBits.toBitVec).toNat :=
          Nat.pos_of_ne_zero fun h => hm (BitVec.toNat_inj.mp h)
        rw [dif_neg hm]
        exact .inr ⟨_, 0, _, hpos, rfl, by rw [hzero]; rfl, (Nat.mul_one _).symm,
          .inl rfl, Nat.zero_le _⟩
    · -- the leading bit of the mantissa is not written
      have hne : (@unpackExponent Format.binary64 v.toBits.toBitVec).toNat ≠ 0 :=
        fun h => hzero (BitVec.toNat_inj.mp h)
      have hmantissa : (1#1 ++ @unpackMantissa Format.binary64 v.toBits.toBitVec).toNat
          = 2 ^ fractionBits + (@unpackMantissa Format.binary64 v.toBits.toBitVec).toNat :=
        toNat_append 1#1 _
      have hpos : 0 < (1#1 ++ @unpackMantissa Format.binary64 v.toBits.toBitVec).toNat := by
        rw [hmantissa]
        exact Nat.add_pos_left (Nat.two_pow_pos _) _
      obtain ⟨k, hk⟩ := Nat.exists_eq_succ_of_ne_zero hne
      rw [hcode, hk] at hv
      rw [if_neg hzero, hcode, hk, Nat.succ_eq_add_one, unitsOfCode_binade k hm52]
      refine .inr ⟨_, k, _, hpos, rfl, ?_, ?_, .inr ?_, ?_⟩
      · show ((k + 1 : Nat) : Int) - ((1023 : Nat) + (52 : Nat)) = k - (1074 : Nat)
        omega
      · rw [← hmantissa]
      · rw [hmantissa]
        exact Nat.le_add_right _ _
      · simp only [infinityCode, fractionBits] at hv
        omega

/-- A finite double stands for its units, with its sign, in parts of one. -/
theorem number_eq {v : Float} (hv : v.isFinite = true) :
    number v = signFactor v * (units v / unitsPerOne) := by
  rcases exists_unpack hv with ⟨hunits, sign, hunpack⟩ | ⟨m, k, e, hm, hunpack, he, hunits, _⟩
  · rw [number, hunpack, hunits, Nat.cast_zero, zero_div, mul_zero]
  · have hstep : (2 : ℚ) ^ e = 2 ^ k / unitsPerOne := by
      have hone : (unitsPerOne : ℚ) = 2 ^ unitExponent := Nat.cast_pow 2 unitExponent
      rw [he, hone, zpow_sub₀ two_ne_zero, zpow_natCast, zpow_natCast]
    have hnumber : number v = signFactor v * m * 2 ^ e := by
      rw [number, hunpack, ← apply_sign]
    have hcast : (units v : ℚ) = m * 2 ^ k := by
      rw [hunits]
      exact (Nat.cast_mul m (2 ^ k)).trans (congrArg _ (Nat.cast_pow 2 k))
    rw [hnumber, hstep, hcast]
    ring

theorem abs_signFactor (v : Float) : |signFactor v| = 1 := by
  rw [signFactor]
  split <;> simp

theorem unitsPerOne_cast_pos : (0 : ℚ) < unitsPerOne :=
  Nat.cast_pos.mpr (Nat.two_pow_pos unitExponent)

theorem abs_number {v : Float} (hv : v.isFinite = true) :
    |number v| = units v / unitsPerOne := by
  rw [number_eq hv, abs_mul, abs_signFactor, one_mul, abs_div, Nat.abs_cast, Nat.abs_cast]

end Calculator.Double
