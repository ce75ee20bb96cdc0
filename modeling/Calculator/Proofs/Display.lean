import Calculator.Proofs.Decimal.Text
import Calculator.Proofs.Double.Number
import Calculator.Proofs.Rounding.Multiple
import Calculator.Proofs.TypedBack

/-!
# What the display shows of a value

A finite value is rounded to a multiple of one unit of the last place, with a
tie to the even multiple, and the text is written from that multiple alone. The
text is canonical, it denotes the multiple, and so two values that are rounded
to different multiples have different texts.
-/

namespace Calculator

-- Powers of natural numbers are those of the core library.
attribute [local instance (2000)] instPowNat

/-! ## The text of a multiple -/

/-- One unit of the last place. -/
def lastPlace (places : Nat) : ℚ :=
  1 / 10 ^ places

theorem lastPlace_pos (places : Nat) : 0 < lastPlace places :=
  one_div_pos.mpr (pow_pos (by norm_num) places)

namespace Decimal

/-- A multiple of the last place as it is written, without zeros at its end. -/
def multipleChars (k : ℤ) (places : Nat) : List Char :=
  (stripped k.natAbs places).signedChars (decide (k < 0))

theorem multipleChars_mem_canonical (k : ℤ) (places : Nat) :
    multipleChars k places ∈ canonical.matches' :=
  signedChars_mem_canonical _ stripped_coefficient_mod_ten

theorem length_afterPoint_multipleChars_le (k : ℤ) (places : Nat) :
    (afterPoint (multipleChars k places)).length ≤ places := by
  rw [multipleChars, afterPoint_signedChars, length_afterPoint_chars]
  exact stripped_places_le k.natAbs places

theorem stripped_eq_lastPlace (coefficient places : Nat) :
    ((stripped coefficient places).coefficient / 10 ^ (stripped coefficient places).places : ℚ)
      = coefficient * lastPlace places := by
  have hkept := stripped_coefficient_mul coefficient places
  have hcast : ((stripped coefficient places).coefficient : ℚ) * 10 ^ places
      = coefficient * 10 ^ (stripped coefficient places).places := by
    exact_mod_cast hkept
  rw [lastPlace, mul_one_div, div_eq_div_iff (ten_pow_ne_zero _) (ten_pow_ne_zero _), hcast]

/-- The text of a multiple denotes it. -/
theorem denoted_multipleChars (k : ℤ) (places : Nat) :
    denoted (multipleChars k places) = k * lastPlace places := by
  rw [multipleChars, denoted_signedChars, stripped_eq_lastPlace]
  rcases Int.lt_or_le k 0 with hneg | hpos
  · have habs : (k.natAbs : ℚ) = -k := by
      rw [Nat.cast_natAbs, abs_of_neg hneg, Int.cast_neg]
    rw [if_pos (decide_eq_true hneg), habs, neg_mul, neg_neg]
  · have habs : (k.natAbs : ℚ) = k := by
      rw [Nat.cast_natAbs, abs_of_nonneg hpos]
    rw [if_neg (by simpa using hpos), habs]

/-- Zero has no sign. -/
theorem multipleChars_ne (k : ℤ) (places : Nat) : multipleChars k places ≠ ['-', '0'] := by
  intro h
  have hzero : denoted ['-', '0'] = 0 := by decide +kernel
  rw [← h, denoted_multipleChars] at hzero
  have hk : k = 0 := by
    rcases mul_eq_zero.mp hzero with hk | hstep
    · exact Int.cast_eq_zero.mp hk
    · exact absurd hstep (lastPlace_pos places).ne'
  subst hk
  exact Literal.numerals_ne_cons (stripped 0 places).numerals_chars (by decide) h

theorem multipleChars_injective (places : Nat) :
    Function.Injective (multipleChars · places) := by
  intro k l h
  have hdenoted : denoted (multipleChars k places) = denoted (multipleChars l places) :=
    congrArg denoted h
  rw [denoted_multipleChars, denoted_multipleChars] at hdenoted
  exact Int.cast_injective (mul_right_cancel₀ (lastPlace_pos places).ne' hdenoted)

end Decimal

namespace Double

/-! ## The multiple shown of a value -/

/-- How many units of the last place are shown of a value. -/
def multiple (v : Float) (places : Nat) : ℤ :=
  let rounded : ℤ := roundHalfEven (units v * 10 ^ places) unitsPerOne
  if isNegative v then -rounded else rounded

theorem natAbs_multiple (v : Float) (places : Nat) :
    (multiple v places).natAbs = roundHalfEven (units v * 10 ^ places) unitsPerOne := by
  rw [multiple]
  split
  · rw [Int.natAbs_neg, Int.natAbs_natCast]
  · rw [Int.natAbs_natCast]

theorem decide_multiple_neg (v : Float) (places : Nat) :
    decide (multiple v places < 0) = shownNegative v places := by
  have hzero : (roundedTo v places).coefficient = 0 ↔
      roundHalfEven (units v * 10 ^ places) unitsPerOne = 0 := by
    rw [← coefficient_mul_pow, Nat.mul_eq_zero]
    exact (or_iff_left (Decimal.ten_pow_pos _).ne').symm
  rw [Bool.eq_iff_iff, decide_eq_true_iff, shownNegative, Bool.and_eq_true, bne_iff_ne, Ne,
    hzero, multiple]
  generalize roundHalfEven (units v * 10 ^ places) unitsPerOne = rounded
  cases isNegative v with
  | false => simp
  | true => simp [Nat.pos_iff_ne_zero]

section Finite

variable {v : Float} (hv : v.isFinite = true) (places : Nat)

include hv

theorem roundsTo_multiple : RoundsTo (lastPlace places) (number v) (multiple v places) := by
  have hrounds := roundsTo_roundHalfEven (lastPlace_pos places) unitsPerOne_pos
    (units v * 10 ^ places)
  have hscaled : ((units v * 10 ^ places : Nat) : ℚ) / unitsPerOne * lastPlace places
      = units v / unitsPerOne := by
    have hcast : ((units v * 10 ^ places : Nat) : ℚ) = units v * 10 ^ places := by
      exact_mod_cast rfl
    rw [hcast, lastPlace, mul_one_div, div_right_comm,
      mul_div_cancel_right₀ _ (Decimal.ten_pow_ne_zero places)]
  rw [hscaled] at hrounds
  rw [number_eq hv, signFactor, multiple]
  split
  · rw [neg_one_mul]
    exact hrounds.neg
  · rw [one_mul]
    exact hrounds

theorem toList_fixedText :
    (fixedText v places).toList = Decimal.multipleChars (multiple v places) places := by
  rw [fixedText_eq hv, String.toList_ofList, Decimal.multipleChars, natAbs_multiple,
    decide_multiple_neg]
  rfl

end Finite

theorem fixedText_eq_iff {v w : Float} (hv : v.isFinite = true) (hw : w.isFinite = true)
    (places : Nat) :
    fixedText v places = fixedText w places ↔ multiple v places = multiple w places := by
  rw [← String.toList_inj, toList_fixedText hv, toList_fixedText hw]
  exact (Decimal.multipleChars_injective places).eq_iff

/-- **The text is exact and canonical**: once the zeros and the point at the end and
the sign of a zero are taken off a value written at all its places, no zero, sign
or point is left that could be left out. There are at most the given number of
decimals, the text denotes the value rounded to a multiple of the last place, and
it tells apart two values that are rounded to different multiples. -/
theorem fixedText_canonical {v : Float} (hv : v.isFinite = true) (places : Nat) :
    (fixedText v places).toList ∈ Decimal.canonical.matches' ∧
    (Decimal.afterPoint (fixedText v places).toList).length ≤ places ∧
    fixedText v places ≠ "-0" ∧
    (∃ k : ℤ, RoundsTo (lastPlace places) (number v) k ∧
      Decimal.denoted (fixedText v places).toList = k * lastPlace places) ∧
    ∀ w : Float, w.isFinite = true →
      (fixedText v places = fixedText w places ↔
        ∃ k : ℤ, RoundsTo (lastPlace places) (number v) k ∧
          RoundsTo (lastPlace places) (number w) k) := by
  have hrounds := roundsTo_multiple hv places
  have hzero : fixedText v places ≠ "-0" := by
    intro h
    have hchars := toList_fixedText hv places
    rw [h] at hchars
    exact Decimal.multipleChars_ne _ places hchars.symm
  rw [toList_fixedText hv]
  refine ⟨Decimal.multipleChars_mem_canonical _ places,
    Decimal.length_afterPoint_multipleChars_le _ places, hzero,
    ⟨multiple v places, hrounds, Decimal.denoted_multipleChars _ places⟩, ?_⟩
  intro w hw
  have hrounds' := roundsTo_multiple hw places
  rw [fixedText_eq_iff hv hw]
  constructor
  · intro h
    exact ⟨multiple v places, hrounds, h ▸ hrounds'⟩
  · intro h
    obtain ⟨k, hk, hk'⟩ := h
    exact (hrounds.unique (lastPlace_pos places) hk).trans
      (hk'.unique (lastPlace_pos places) hrounds')

/-- A carry lengthens the number, and the zeros before the point remain. -/
theorem fixedText_canonical_carry :
    ((99.96875 : Float).isFinite = true ∧ (100.03125 : Float).isFinite = true ∧
      fixedText 99.96875 1 = "100") ∧
    "100".toList ∈ Decimal.canonical.matches' ∧
    (Decimal.afterPoint "100".toList).length ≤ 1 ∧
    "100" ≠ "-0" ∧
    (∃ k : ℤ, RoundsTo (lastPlace 1) (number 99.96875) k ∧
      Decimal.denoted "100".toList = k * lastPlace 1) ∧
    ("100" = fixedText 100.03125 1 ↔
      ∃ k : ℤ, RoundsTo (lastPlace 1) (number 99.96875) k ∧
        RoundsTo (lastPlace 1) (number 100.03125) k) := by
  have hfinite : (99.96875 : Float).isFinite = true := by decide +kernel
  have hfinite' : (100.03125 : Float).isFinite = true := by decide +kernel
  have htext : fixedText 99.96875 1 = "100" := by decide +kernel
  have hcanonical := fixedText_canonical hfinite 1
  rw [htext] at hcanonical
  obtain ⟨hmem, hlength, hzero, hdenoted, hsame⟩ := hcanonical
  exact ⟨⟨hfinite, hfinite', htext⟩, hmem, hlength, hzero, hdenoted, hsame _ hfinite'⟩

end Double

end Calculator
