import Calculator.Proofs.Double.Zero

/-!
# The bits of a double

A double is made from a sign and a code by packing what its bits unpack to.
Nothing is changed on the way unless the bits spell no number, so sign and
code are read back as they were put in, and the finite doubles are those
whose code lies below infinity.
-/

namespace Calculator.Double

open Float.Model.UnpackedFloat
open Float.Model (Format UnpackedFloat)

-- Powers of natural numbers are those of the core library.
attribute [local instance (2000)] instPowNat

/-! ## The parts of a bit pattern -/

theorem toNat_unpackSign (b : BitVec 64) :
    (@unpackSign Format.binary64 b).toNat = b.toNat / 2 ^ signBit % 2 := by
  show (BitVec.extractLsb' 63 1 b).toNat = _
  rw [BitVec.extractLsb'_toNat, Nat.shiftRight_eq_div_pow]

theorem toBitVec_ofBitVec (s : BitVec 1) : (Sign.ofBitVec s).toBitVec = s := by
  revert s
  decide

theorem toNat_append {m n : Nat} (x : BitVec m) (y : BitVec n) :
    (x ++ y).toNat = x.toNat * 2 ^ n + y.toNat := by
  rw [BitVec.toNat_append, ← Nat.shiftLeft_add_eq_or_of_lt y.isLt,
    Nat.shiftLeft_eq]

/-- The parts of a pattern, side by side, are the pattern. -/
theorem packComponents_eq {b : BitVec 64} {e : BitVec 11} {m : BitVec 52}
    (he : @unpackExponent Format.binary64 b = e)
    (hm : @unpackMantissa Format.binary64 b = m) :
    packComponents .binary64 (Sign.ofBitVec (@unpackSign Format.binary64 b)) e m
      = b := by
  have hlt := b.isLt
  rw [← BitVec.toNat_inj, packComponents, toNat_append, toNat_append,
    toBitVec_ofBitVec, toNat_unpackSign, ← he, ← hm, toNat_unpackExponent,
    toNat_unpackMantissa]
  simp only [signBit, fractionBits]
  omega

/-! ## Packing -/

theorem pack_finite (s : Sign) {m : Nat} {e : Int} (hm : 0 < m) {biased : Nat}
    (he : (e + (1023 : Nat) + (52 : Nat)).toNat = biased) :
    UnpackedFloat.pack .binary64 (.finite s m e hm) =
      if 2048 ≤ biased + 1 then packedInfinity .binary64 s
      else if m.log2 + 1 = 53 then
        packComponents .binary64 s (BitVec.ofNat 11 biased) (BitVec.ofNat 52 m)
      else packComponents .binary64 s 0#11 (BitVec.ofNat 52 m) := by
  subst he
  rfl

/-- A subnormal number is packed with exponent zero. -/
theorem pack_subnormal (s : Sign) {m : Nat} {e : Int} (hm : 0 < m)
    (hlt : m < 2 ^ fractionBits) (he : e = -1074) :
    UnpackedFloat.pack .binary64 (.finite s m e hm)
      = packComponents .binary64 s 0#11 (BitVec.ofNat 52 m) := by
  have hlog : m.log2 < 52 := (Nat.log2_lt (Nat.ne_of_gt hm)).mpr hlt
  have hbiased : (e + (1023 : Nat) + (52 : Nat)).toNat = 1 := by omega
  rw [pack_finite s hm hbiased, if_neg (by omega), if_neg (by omega)]

/-- A normal number is packed with its exponent, and without its leading
bit. -/
theorem pack_normal (s : Sign) (m : BitVec 52) {e : BitVec 11}
    (hpos : 0 < e.toNat) (hlt : e.toNat < 2047) (hm : 0 < (1#1 ++ m).toNat) :
    UnpackedFloat.pack .binary64 (.finite s (1#1 ++ m).toNat (e.toNat - 1075) hm)
      = packComponents .binary64 s e m := by
  have hvalue : (1#1 ++ m).toNat = 2 ^ 52 + m.toNat := toNat_append 1#1 m
  have hlog : (1#1 ++ m).toNat.log2 = 52 := by
    have := m.isLt
    rw [Nat.log2_eq_iff (Nat.ne_of_gt hm), hvalue]
    omega
  have hbiased : ((e.toNat - 1075 : Int) + (1023 : Nat) + (52 : Nat)).toNat
      = e.toNat := by omega
  have hmantissa : BitVec.ofNat 52 (1#1 ++ m).toNat = m := by
    have := m.isLt
    rw [← BitVec.toNat_inj, BitVec.toNat_ofNat, hvalue]
    omega
  rw [pack_finite s hm hbiased, if_neg (by omega), hlog, if_pos rfl, hmantissa,
    BitVec.ofNat_toNat, BitVec.setWidth_eq]

/-- A pattern that is not above infinity is packed back to itself. -/
theorem pack_unpack {b : BitVec 64} (h : b.toNat % 2 ^ signBit ≤ infinityCode) :
    UnpackedFloat.pack .binary64 (UnpackedFloat.unpack .binary64 b) = b := by
  have hexponent := toNat_unpackExponent b
  have hmantissa := toNat_unpackMantissa b
  have hlt := b.isLt
  simp only [signBit, infinityCode, fractionBits] at h hexponent hmantissa
  unfold UnpackedFloat.unpack
  by_cases hones : @unpackExponent Format.binary64 b = -1#11
  · -- infinity: no other pattern of this exponent is low enough
    have hm : @unpackMantissa Format.binary64 b = 0#52 := by
      rw [← BitVec.toNat_inj, hmantissa]
      rw [hones] at hexponent
      replace hexponent : 2047 = b.toNat / 2 ^ 52 % 2048 := hexponent
      show b.toNat % 2 ^ 52 = 0
      omega
    rw [if_pos hones, if_pos hm]
    exact packComponents_eq hones hm
  · rw [if_neg hones]
    by_cases hzero : @unpackExponent Format.binary64 b = 0#11
    · rw [if_pos hzero]
      by_cases hm : @unpackMantissa Format.binary64 b = 0#52
      · rw [dif_pos hm]
        exact packComponents_eq hzero hm
      · rw [dif_neg hm, pack_subnormal _ _ (BitVec.isLt _) (by rw [hzero]; rfl)]
        exact packComponents_eq hzero (by rw [BitVec.ofNat_toNat, BitVec.setWidth_eq])
    · have hpos : 0 < (@unpackExponent Format.binary64 b).toNat :=
        Nat.pos_of_ne_zero fun h => hzero (BitVec.toNat_inj.mp h)
      have hne : (@unpackExponent Format.binary64 b).toNat ≠ 2047 :=
        fun h => hones (BitVec.toNat_inj.mp h)
      rw [if_neg hzero]
      exact (pack_normal _ _ hpos (by omega) _).trans (packComponents_eq rfl rfl)

/-! ## Sign and code -/

theorem toBits_ofBits {n : Nat} (hlt : n < 2 * 2 ^ signBit)
    (h : n % 2 ^ signBit ≤ infinityCode) :
    (Float.ofBits (UInt64.ofNat n)).toBits.toNat = n := by
  have hnat : (UInt64.ofNat n).toBitVec.toNat = n := by
    rw [UInt64.toNat_toBitVec, UInt64.toNat_ofNat']
    exact Nat.mod_eq_of_lt hlt
  show (UnpackedFloat.pack .binary64
    (UnpackedFloat.unpack .binary64 (UInt64.ofNat n).toBitVec)).toNat = n
  rw [pack_unpack (by rw [hnat]; exact h), hnat]

section OfCode

variable {c : Nat} (h : c ≤ infinityCode) (negative : Bool)

include h

theorem toNat_toBits_ofCode :
    (ofCode negative c).toBits.toNat = if negative then 2 ^ signBit + c else c := by
  have hlt : c < 2 ^ signBit := Nat.lt_of_le_of_lt h (by decide)
  refine toBits_ofBits ?_ ?_
  · simp only [signBit] at hlt ⊢
    split <;> omega
  · have hmod : (if negative then 2 ^ signBit + c else c) % 2 ^ signBit = c := by
      simp only [signBit] at hlt ⊢
      split <;> omega
    rw [hmod]
    exact h

/-- The code of a double is the one it was made with. -/
theorem code_ofCode : code (ofCode negative c) = c := by
  have hlt : c < 2 ^ signBit := Nat.lt_of_le_of_lt h (by decide)
  rw [code, toNat_toBits_ofCode h]
  simp only [signBit] at hlt ⊢
  split <;> omega

/-- The sign of a double is the one it was made with. -/
theorem isNegative_ofCode : isNegative (ofCode negative c) = negative := by
  have hlt : c < 2 ^ signBit := Nat.lt_of_le_of_lt h (by decide)
  rw [isNegative, toNat_toBits_ofCode h]
  cases negative <;> simp [hlt]

end OfCode

theorem toBits_injective {v w : Float} (h : v.toBits = w.toBits) : v = w := by
  obtain ⟨⟨b, _⟩⟩ := v
  obtain ⟨⟨c, _⟩⟩ := w
  obtain rfl : b = c := h
  rfl

/-- A double is made of its sign and its code. -/
theorem ofCode_code {v : Float} (h : code v ≤ infinityCode) :
    ofCode (isNegative v) (code v) = v := by
  apply toBits_injective
  apply UInt64.toNat.inj
  have hlt := v.toBits.toNat_lt
  rw [toNat_toBits_ofCode h, isNegative, code]
  simp only [signBit, decide_eq_true_eq] at hlt ⊢
  split <;> omega

/-- The finite doubles are those below infinity. -/
theorem isFinite_iff {v : Float} : v.isFinite = true ↔ code v < infinityCode := by
  have hexponent := toNat_unpackExponent v.toBits.toBitVec
  show (UnpackedFloat.unpack Format.binary64 v.toBits.toBitVec).isFinite = true ↔ _
  simp only [UInt64.toNat_toBitVec, fractionBits] at hexponent
  simp only [code, signBit, infinityCode, fractionBits]
  unfold UnpackedFloat.unpack
  by_cases hones : @unpackExponent Format.binary64 v.toBits.toBitVec = -1#11
  · rw [hones] at hexponent
    replace hexponent : 2047 = v.toBits.toNat / 2 ^ 52 % 2048 := hexponent
    rw [if_pos hones]
    refine iff_of_false ?_ (by omega)
    split <;> exact Bool.false_ne_true
  · have hne : (@unpackExponent Format.binary64 v.toBits.toBitVec).toNat ≠ 2047 :=
      fun h => hones (BitVec.toNat_inj.mp h)
    rw [if_neg hones]
    refine iff_of_true ?_ (by omega)
    by_cases hzero : @unpackExponent Format.binary64 v.toBits.toBitVec = 0#11
    · rw [if_pos hzero]
      by_cases hm : @unpackMantissa Format.binary64 v.toBits.toBitVec = 0#52
      · rw [dif_pos hm]
        rfl
      · rw [dif_neg hm]
        rfl
    · rw [if_neg hzero]
      rfl

end Calculator.Double
