import Calculator.Proofs.Double.Nearest
import Calculator.Proofs.Double.Number
import Calculator.Proofs.Rounding.Multiple

/-!
# The finite double nearest to a number

The codes go on beyond infinity as if there were more binades, and a number is
first rounded among all of them. Where the code found is that of a finite double,
this double is nearest among all finite ones of either sign. The code found
reaches infinity exactly from half-way between the largest finite double and the
number that infinity would stand for: that number has the even code, so half-way
goes up.
-/

namespace Calculator.Double

-- Powers of natural numbers are those of the core library.
attribute [local instance (2000)] instPowNat

/-! ## The bound of the finite doubles -/

/-- An even code is the nearest one or below it from half-way on. -/
theorem IsNearest.succ_le_iff {num den n c : Nat} (h : IsNearest num den n) (hden : 0 < den)
    (hodd : c % 2 = 1) :
    c + 1 ≤ n ↔
      (unitsOfCode c + unitsOfCode (c + 1)) * den ≤ 2 * (num * unitsPerOne) := by
  have hmono : ∀ {a b}, a ≤ b → unitsOfCode a * den ≤ unitsOfCode b * den :=
    fun hab => Nat.mul_le_mul_right den (unitsOfCode_strictMono.monotone hab)
  have hlt : unitsOfCode c * den < unitsOfCode (c + 1) * den :=
    Nat.mul_lt_mul_of_pos_right (unitsOfCode_strictMono (Nat.lt_succ_self c)) hden
  rw [Nat.add_mul]
  constructor
  · intro hle
    have hnear := h.distance_le c
    have hcode := hmono hle
    unfold distance Nat.dist at hnear
    omega
  · intro hhalf
    by_contra hle
    have hcode := hmono (Nat.le_of_lt_succ (Nat.lt_of_not_le hle))
    have hnear := h.distance_le (c + 1)
    -- the nearest code would be the odd one, with a tie
    have htie : distance num den (c + 1) = distance num den n ∧
        unitsOfCode n * den = unitsOfCode c * den := by
      unfold distance Nat.dist at hnear ⊢
      omega
    have hn : n = c := unitsOfCode_strictMono.injective
      (Nat.eq_of_mul_eq_mul_right hden htie.2)
    have heven := h.even_of_tie (c + 1) (by omega) htie.1
    omega

/-- The steps of the last finite binade are two to this power, in units. -/
abbrev lastBinade : Nat := 2045

theorem unitsOfCode_infinityCode :
    unitsOfCode infinityCode = 2 * 2 ^ fractionBits * 2 ^ lastBinade := by
  have hcode : infinityCode = lastBinade * 2 ^ fractionBits + 2 * 2 ^ fractionBits := by decide
  rw [hcode]
  exact unitsOfCode_step (Nat.le_refl _) (.inr (by omega))

theorem unitsOfCode_lastCode :
    unitsOfCode (infinityCode - 1) = (2 * 2 ^ fractionBits - 1) * 2 ^ lastBinade := by
  have hcode : infinityCode - 1
      = lastBinade * 2 ^ fractionBits + (2 * 2 ^ fractionBits - 1) := by decide
  rw [hcode]
  exact unitsOfCode_step (Nat.sub_le _ _) (.inr (by decide))

/-- From this number on there is no nearest finite double: it lies half-way
between the largest finite one and the number one step above it. -/
def overflowThreshold : ℚ :=
  2 ^ 1024 - 2 ^ 970

theorem cast_two_pow (n : Nat) : ((2 ^ n : Nat) : ℚ) = 2 ^ n :=
  Nat.cast_pow 2 n

/-- Twice the bound is the sum of the two numbers on either side of it. -/
theorem two_mul_overflowThreshold :
    2 * overflowThreshold * unitsPerOne
      = (unitsOfCode (infinityCode - 1) + unitsOfCode infinityCode : Nat) := by
  have hstep : (2 : ℚ) * 2 ^ 970 * unitsPerOne = (2 ^ lastBinade : Nat) := by
    have hexponent : 970 + 1 + unitExponent = lastBinade := rfl
    rw [unitsPerOne, cast_two_pow, cast_two_pow, ← pow_succ', ← pow_add, hexponent]
  have htop : (2 : ℚ) ^ 1024 = 2 ^ 970 * 2 ^ 54 := pow_add 2 970 54
  have hsteps : 2 * 2 ^ fractionBits - 1 + 2 * 2 ^ fractionBits = 2 ^ 54 - 1 := by decide
  have hcast : ((2 ^ 54 - 1 : Nat) : ℚ) = 2 ^ 54 - 1 := by norm_num
  rw [unitsOfCode_lastCode, unitsOfCode_infinityCode, ← Nat.add_mul, hsteps, Nat.cast_mul,
    ← hstep, hcast, overflowThreshold, htop]
  generalize (2 : ℚ) ^ 970 = part
  ring

theorem infinityCode_le_nearestCode_iff {num den : Nat} (hden : 0 < den) :
    infinityCode ≤ nearestCode num den ↔ overflowThreshold ≤ num / den := by
  have hhalf := (isNearest_nearestCode hden num).succ_le_iff hden
    (c := infinityCode - 1) (by decide)
  have hsucc : infinityCode - 1 + 1 = infinityCode := by decide
  have hdenpos : (0 : ℚ) < den := Nat.cast_pos.mpr hden
  have hscale : (0 : ℚ) < 2 * unitsPerOne := mul_pos two_pos unitsPerOne_cast_pos
  have hleft : 2 * overflowThreshold * unitsPerOne * den
      = overflowThreshold * den * (2 * unitsPerOne) := by ring
  have hright : ((2 * (num * unitsPerOne) : Nat) : ℚ) = num * (2 * unitsPerOne) := by
    push_cast
    ring
  rw [hsucc] at hhalf
  rw [hhalf, ← Nat.cast_le (α := ℚ), Nat.cast_mul, ← two_mul_overflowThreshold, hleft, hright,
    mul_le_mul_iff_of_pos_right hscale, le_div_iff₀ hdenpos]

/-! ## The nearest finite double -/

/-- The number `q` is rounded to the finite double `v`: no finite double is
nearer, and if another number of a finite double is as near, then the last bit of
`v` is not set. -/
structure RoundsToDouble (q : ℚ) (v : Float) : Prop where
  isFinite : v.isFinite = true
  distance_le : ∀ w : Float, w.isFinite = true → |q - number v| ≤ |q - number w|
  even_of_tie : ∀ w : Float, w.isFinite = true → number w ≠ number v →
    |q - number w| = |q - number v| → code v % 2 = 0

/-- A quotient with a sign. -/
def signedQuotient (negative : Bool) (num den : Nat) : ℚ :=
  if negative then -(num / den) else num / den

theorem abs_signedQuotient (negative : Bool) (num den : Nat) :
    |signedQuotient negative num den| = num / den := by
  have hnonneg : (0 : ℚ) ≤ num / den := div_nonneg num.cast_nonneg den.cast_nonneg
  rw [signedQuotient]
  split
  · rw [abs_neg, abs_of_nonneg hnonneg]
  · exact abs_of_nonneg hnonneg

section Distance

variable {den : Nat} (hden : 0 < den) (num : Nat) {w : Float} (hw : w.isFinite = true)

include hden

theorem abs_div_sub_units (w : Float) :
    |(num / den : ℚ) - units w / unitsPerOne|
      = distance num den (code w) / (den * unitsPerOne) := by
  have hdenpos : (0 : ℚ) < den := Nat.cast_pos.mpr hden
  have hone := unitsPerOne_cast_pos
  rw [distance, cast_dist, div_sub_div _ _ hdenpos.ne' hone.ne', abs_div,
    abs_of_pos (mul_pos hdenpos hone), abs_sub_comm, units]
  push_cast
  rw [mul_comm (den : ℚ)]

include hw

/-- A double is no nearer than its code. -/
theorem distance_le_abs_sub (negative : Bool) :
    distance num den (code w) / (den * unitsPerOne)
      ≤ |signedQuotient negative num den - number w| := by
  have hmagnitudes := abs_abs_sub_abs_le (signedQuotient negative num den) (number w)
  rwa [abs_signedQuotient, abs_number hw, abs_div_sub_units hden num] at hmagnitudes

/-- A double of the same sign is as near as its code. -/
theorem abs_sub_of_same_sign {negative : Bool} (hsign : isNegative w = negative) :
    |signedQuotient negative num den - number w|
      = distance num den (code w) / (den * unitsPerOne) := by
  rw [number_eq hw, signFactor, hsign, ← abs_div_sub_units hden num, signedQuotient]
  split
  · rw [neg_one_mul, neg_sub_neg, abs_sub_comm]
  · rw [one_mul]

end Distance

/-- Zero is the only code nearest to zero. -/
theorem IsNearest.eq_zero {den c : Nat} (h : IsNearest 0 den c) (hden : 0 < den) : c = 0 := by
  have hnear := h.distance_le 0
  have hzero : unitsOfCode 0 = 0 := unitsOfCode_of_lt (Nat.two_pow_pos _)
  rw [distance, distance, hzero, Nat.zero_mul, Nat.zero_mul, Nat.dist_zero_right,
    Nat.dist_self, Nat.le_zero, Nat.mul_eq_zero] at hnear
  exact unitsOfCode_strictMono.injective
    ((hnear.resolve_right (Nat.ne_of_gt hden)).trans hzero.symm)

/-- A quotient whose nearest code is finite is rounded to the double of this code
with its own sign. -/
theorem roundsToDouble_nearestCode {num den : Nat} (hden : 0 < den)
    (hfinite : nearestCode num den < infinityCode) (negative : Bool) :
    RoundsToDouble (signedQuotient negative num den)
      (ofCode negative (nearestCode num den)) := by
  have hnearest := isNearest_nearestCode hden num
  have hcode := code_ofCode (Nat.le_of_lt hfinite) negative
  have hsign := isNegative_ofCode (Nat.le_of_lt hfinite) negative
  generalize ofCode negative (nearestCode num den) = v at hcode hsign ⊢
  have hv : v.isFinite = true := isFinite_iff.mpr (hcode ▸ hfinite)
  have hscale : (0 : ℚ) < den * unitsPerOne :=
    mul_pos (Nat.cast_pos.mpr hden) unitsPerOne_cast_pos
  have hexact := abs_sub_of_same_sign hden num hv hsign
  rw [← hcode] at hnearest
  refine ⟨hv, fun w hw => ?_, fun w hw hne htie => ?_⟩
  · rw [hexact]
    refine le_trans ?_ (distance_le_abs_sub hden num hw negative)
    exact div_le_div_of_nonneg_right (Nat.cast_le.mpr (hnearest.distance_le _)) hscale.le
  · have hle := distance_le_abs_sub hden num hw negative
    rw [htie, hexact, div_le_div_iff_of_pos_right hscale, Nat.cast_le] at hle
    have heq : distance num den (code w) = distance num den (code v) :=
      Nat.le_antisymm hle (hnearest.distance_le _)
    by_cases hcodes : code w = code v
    · -- two numbers of one magnitude are as near only to zero
      have hopposite : number w = -number v := by
        have habs : |number w| = |number v| := by
          rw [abs_number hw, abs_number hv, units, units, hcodes]
        exact (abs_eq_abs.mp habs).resolve_left hne
      have hzero : signedQuotient negative num den = 0 := by
        rcases abs_eq_abs.mp htie with hsame | hmiddle
        · exact absurd (sub_right_injective hsame) hne
        · linarith
      have hnum : num = 0 := by
        have habs := abs_signedQuotient negative num den
        rw [hzero, abs_zero, eq_comm, div_eq_zero_iff, Nat.cast_eq_zero,
          Nat.cast_eq_zero] at habs
        exact habs.resolve_right (Nat.ne_of_gt hden)
      rw [hnum] at hnearest
      rw [hnearest.eq_zero hden]
    · exact hnearest.even_of_tie _ hcodes heq

end Calculator.Double
