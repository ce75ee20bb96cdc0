import Calculator.Double

/-!
# Comparison with zero

A double equals zero, in the sense of the comparison of doubles, exactly when
its code is zero, and its sign does not matter. The comparison is defined on
sign, exponent and mantissa taken apart; here it is brought back to the bits.
-/

namespace Calculator.Double

open Float.Model Float.Model.UnpackedFloat

-- Powers of natural numbers are those of the core library.
attribute [local instance (2000)] instPowNat

/-! ## The parts of a double -/

theorem toNat_unpackMantissa (b : BitVec 64) :
    (@unpackMantissa Format.binary64 b).toNat = b.toNat % 2 ^ fractionBits := by
  simp [unpackMantissa, Format.binary64, BitVec.extractLsb, fractionBits]

theorem toNat_unpackExponent (b : BitVec 64) :
    (@unpackExponent Format.binary64 b).toNat
      = b.toNat / 2 ^ fractionBits % 2048 := by
  simp [unpackExponent, Format.binary64, BitVec.extractLsb, fractionBits,
    Nat.shiftRight_eq_div_pow]

/-- The code is zero when exponent and mantissa are. -/
theorem code_eq_zero_iff (v : Float) :
    code v = 0 ↔
      @unpackExponent Format.binary64 v.toBits.toBitVec = 0#11 ∧
        @unpackMantissa Format.binary64 v.toBits.toBitVec = 0#52 := by
  rw [← BitVec.toNat_inj, ← BitVec.toNat_inj, toNat_unpackExponent,
    toNat_unpackMantissa, code]
  simp only [UInt64.toNat_toBitVec, BitVec.toNat_zero, fractionBits, signBit]
  omega

/-- The double is a zero of either sign when its code is zero. -/
theorem unpack_eq_zero_iff (v : Float) :
    (∃ sign, v.toModel.unpack = .zero sign) ↔ code v = 0 := by
  rw [code_eq_zero_iff]
  show (∃ sign, UnpackedFloat.unpack Format.binary64 v.toBits.toBitVec
    = .zero sign) ↔ _
  unfold UnpackedFloat.unpack
  generalize hexponent : @unpackExponent Format.binary64 v.toBits.toBitVec = e
  by_cases hones : e = -BitVec.ofNat Format.binary64.exponentBits 1
  · -- an infinity or no number
    rw [if_pos hones]
    subst hones
    by_cases hm : @unpackMantissa Format.binary64 v.toBits.toBitVec = 0#52 <;>
      simp [hm]
  · rw [if_neg hones]
    by_cases he : e = 0#11
    · rw [if_pos he]
      by_cases hm : @unpackMantissa Format.binary64 v.toBits.toBitVec = 0#52
      · rw [dif_pos hm]
        exact ⟨fun _ => ⟨he, hm⟩, fun _ => ⟨_, rfl⟩⟩
      · -- below the normal range
        rw [dif_neg hm]
        exact ⟨fun ⟨_, h⟩ => (by cases h), fun h => absurd h.2 hm⟩
    · rw [if_neg he]
      exact ⟨fun ⟨_, h⟩ => (by cases h), fun h => absurd h.1 he⟩

/-! ## The comparison -/

/-- Only zeros compare equal to a zero. -/
theorem compare_zero_eq_iff (u : UnpackedFloat) (sign : Sign) :
    u.compare (.zero sign) = some .eq ↔ ∃ sign', u = .zero sign' := by
  constructor
  · intro h
    cases u with
    | zero s => exact ⟨s, rfl⟩
    | infinity s => cases s <;> cases h
    | notANumber => cases h
    | finite s m e hm => cases s <;> cases h
  · intro h
    obtain ⟨s, rfl⟩ := h
    rfl

theorem unpack_zero : (0 : Float).toModel.unpack = .zero .positive := rfl

/-- The doubles that are equal to zero are those of code zero. -/
theorem beq_zero_iff {v : Float} : (v == 0) = true ↔ code v = 0 := by
  rw [← unpack_eq_zero_iff, ← compare_zero_eq_iff _ .positive, ← unpack_zero]
  show (v.toModel.unpack.compare (0 : Float).toModel.unpack == some .eq) = true
    ↔ _
  exact beq_iff_eq

end Calculator.Double
