import Calculator.Double
import Calculator.Proofs.Rounding
import Mathlib.Order.Monotone.Basic

/-!
# The nearest double

The units of the codes grow strictly, by a step that depends on the binade
only. A quotient is rounded to a multiple of the step of its own binade.
Codes of lower binades are not multiples of that step, but they lie below the
binade, so its first code is nearer than they are; all other codes are
multiples of the step. So the code found is nearest among all codes, those
above infinity included, and it is even if another one is as near.
-/

namespace Calculator.Double

-- Powers of natural numbers are those of the core library.
attribute [local instance (2000)] instPowNat

/-! ## The units of a code -/

theorem next_binade (k : Nat) :
    2 ^ fractionBits * 2 ^ (k + 1) = 2 * 2 ^ fractionBits * 2 ^ k := by
  have hpow : 2 ^ (k + 1) = 2 * 2 ^ k := Nat.pow_succ'
  rw [hpow, Nat.mul_left_comm, Nat.mul_assoc]

/-- A multiple of the step of a binade, from the start of the binade to the
start of the next one, is the units of a code. Below the first binade the
step is that of the first. -/
theorem unitsOfCode_step {k r : Nat} (hr : r ≤ 2 * 2 ^ fractionBits)
    (hk : k = 0 ∨ 2 ^ fractionBits ≤ r) :
    unitsOfCode (k * 2 ^ fractionBits + r) = r * 2 ^ k := by
  by_cases hlow : r < 2 ^ fractionBits
  · obtain rfl : k = 0 := by omega
    rw [Nat.zero_mul, Nat.zero_add, unitsOfCode_of_lt hlow, Nat.pow_zero,
      Nat.mul_one]
  · rcases Nat.lt_or_eq_of_le hr with hlt | rfl
    · obtain ⟨m, rfl⟩ := Nat.exists_eq_add_of_le (Nat.le_of_not_lt hlow)
      rw [← unitsOfCode_binade k (by omega), Nat.succ_mul, Nat.add_assoc]
    · -- the start of the next binade
      have hnext := unitsOfCode_binade (k + 1) (Nat.two_pow_pos fractionBits)
      rw [Nat.add_zero] at hnext
      rw [← Nat.add_mul, hnext, Nat.add_zero, next_binade]

/-- Every code is a number of steps in a binade. -/
theorem exists_eq_step (c : Nat) :
    ∃ k r, c = k * 2 ^ fractionBits + r ∧ r < 2 * 2 ^ fractionBits ∧
      (k = 0 ∨ 2 ^ fractionBits ≤ r) := by
  refine ⟨c / 2 ^ fractionBits - 1,
    c - (c / 2 ^ fractionBits - 1) * 2 ^ fractionBits, ?_⟩
  simp only [fractionBits]
  omega

/-- One code is one step above the other. -/
theorem unitsOfCode_succ (c : Nat) :
    unitsOfCode (c + 1) = unitsOfCode c + 2 ^ (c / 2 ^ fractionBits - 1) := by
  obtain ⟨k, r, rfl, hr, hk⟩ := exists_eq_step c
  have hbinade : (k * 2 ^ fractionBits + r) / 2 ^ fractionBits - 1 = k := by
    simp only [fractionBits] at hr hk ⊢
    omega
  rw [hbinade, Nat.add_assoc, unitsOfCode_step (Nat.le_of_lt hr) hk,
    unitsOfCode_step hr (hk.imp_right Nat.le_succ_of_le), Nat.succ_mul]

theorem unitsOfCode_strictMono : StrictMono unitsOfCode := by
  refine strictMono_nat_of_lt_succ fun c => ?_
  rw [unitsOfCode_succ]
  exact Nat.lt_add_of_pos_right (Nat.two_pow_pos _)

/-- The units from the start of a binade on are multiples of its step. -/
theorem dvd_unitsOfCode {c k : Nat}
    (h : k = 0 ∨ 2 ^ fractionBits * 2 ^ k ≤ unitsOfCode c) :
    2 ^ k ∣ unitsOfCode c := by
  obtain ⟨j, r, rfl, hr, hj⟩ := exists_eq_step c
  rw [unitsOfCode_step (Nat.le_of_lt hr) hj] at h ⊢
  suffices hle : k ≤ j from Nat.dvd_mul_left_of_dvd (Nat.pow_dvd_pow 2 hle) r
  by_contra hlt
  have hbelow : r * 2 ^ j < 2 ^ fractionBits * 2 ^ k := by
    calc r * 2 ^ j < 2 * 2 ^ fractionBits * 2 ^ j :=
          Nat.mul_lt_mul_of_pos_right hr (Nat.two_pow_pos j)
      _ = 2 ^ fractionBits * 2 ^ (j + 1) := (next_binade j).symm
      _ ≤ 2 ^ fractionBits * 2 ^ k :=
          Nat.mul_le_mul_left _ (Nat.pow_le_pow_right (by omega) (by omega))
  omega

/-- The step below infinity is more than one. -/
theorem unitsOfCode_add_lt_infinity {c : Nat} (h : c < infinityCode) :
    unitsOfCode c + unitsPerOne < unitsOfCode infinityCode := by
  have hstep : ∀ e, unitExponent < e → unitsPerOne < 2 ^ e :=
    fun e he => Nat.pow_lt_pow_right (by decide) he
  have hlast : unitsOfCode infinityCode = unitsOfCode (infinityCode - 1)
      + 2 ^ ((infinityCode - 1) / 2 ^ fractionBits - 1) :=
    unitsOfCode_succ (infinityCode - 1)
  have hle : unitsOfCode c ≤ unitsOfCode (infinityCode - 1) :=
    unitsOfCode_strictMono.monotone (Nat.le_sub_one_of_lt h)
  rw [hlast]
  exact Nat.add_lt_add_of_le_of_lt hle (hstep _ (by decide))

theorem unitsPerOne_pos : 0 < unitsPerOne :=
  Nat.two_pow_pos unitExponent

/-! ## The nearest code -/

/-- How far a code is from `num / den`: in units, and times `den`. -/
def distance (num den c : Nat) : Nat :=
  Nat.dist (unitsOfCode c * den) (num * unitsPerOne)

/-- No code is nearer to `num / den`, and if another one is as near, this one
is even. -/
structure IsNearest (num den c : Nat) : Prop where
  distance_le : ∀ d, distance num den c ≤ distance num den d
  even_of_tie : ∀ d, d ≠ c → distance num den d = distance num den c → c % 2 = 0

/-- The distance of a code that is a number of steps of a binade. -/
theorem distance_eq (num den : Nat) {c k m : Nat}
    (h : unitsOfCode c = m * 2 ^ k) :
    distance num den c = Nat.dist (m * (den * 2 ^ k)) (num * unitsPerOne) := by
  rw [distance, h, Nat.mul_assoc, Nat.mul_comm den]

/-- A code below the binade of a quotient is farther away than the start of
the binade. -/
theorem distance_start_lt {num den c k : Nat} (hden : 0 < den)
    (hstart : 2 ^ fractionBits * (den * 2 ^ k) ≤ num * unitsPerOne)
    (h : unitsOfCode c < 2 ^ fractionBits * 2 ^ k) :
    Nat.dist (2 ^ fractionBits * (den * 2 ^ k)) (num * unitsPerOne)
      < distance num den c := by
  have hbelow := Nat.mul_lt_mul_of_pos_right h hden
  rw [Nat.mul_assoc, Nat.mul_comm (2 ^ k)] at hbelow
  unfold distance Nat.dist
  omega

section Binade

variable {num den k : Nat} (hden : 0 < den)
  (hlow : k = 0 ∨ 2 ^ fractionBits * (den * 2 ^ k) ≤ num * unitsPerOne)
  (hhigh : num * unitsPerOne < 2 * 2 ^ fractionBits * (den * 2 ^ k))

include hden hlow

/-- Every code is a number of steps of this binade, or it is farther away than
the rounded quotient. -/
theorem eq_steps_or_farther (c : Nat) :
    (∃ m, unitsOfCode c = m * 2 ^ k) ∨
      Nat.dist (roundHalfEven (num * unitsPerOne) (den * 2 ^ k) * (den * 2 ^ k))
        (num * unitsPerOne) < distance num den c := by
  have hstep : 0 < den * 2 ^ k := Nat.mul_pos hden (Nat.two_pow_pos k)
  by_cases h : k = 0 ∨ 2 ^ fractionBits * 2 ^ k ≤ unitsOfCode c
  · obtain ⟨m, hm⟩ := dvd_unitsOfCode h
    exact .inl ⟨m, by rw [hm, Nat.mul_comm]⟩
  · obtain ⟨hk, hlt⟩ := not_or.mp h
    exact .inr (Nat.lt_of_le_of_lt
      (dist_roundHalfEven_le hstep (num * unitsPerOne) (2 ^ fractionBits))
      (distance_start_lt hden (hlow.resolve_left hk) (Nat.lt_of_not_le hlt)))

include hhigh

/-- In its binade, or below it if it is the first, a quotient is rounded to a
number of steps of this binade, the start of the next one included. -/
theorem unitsOfCode_rounded :
    unitsOfCode (k * 2 ^ fractionBits
        + roundHalfEven (num * unitsPerOne) (den * 2 ^ k))
      = roundHalfEven (num * unitsPerOne) (den * 2 ^ k) * 2 ^ k := by
  have hstep : 0 < den * 2 ^ k := Nat.mul_pos hden (Nat.two_pow_pos k)
  exact unitsOfCode_step (roundHalfEven_le_of_le hstep (Nat.le_of_lt hhigh))
    (hlow.imp_right (le_roundHalfEven_of_le hstep))

/-- The rounded quotient is the nearest code. -/
theorem isNearest_of_binade :
    IsNearest num den (k * 2 ^ fractionBits
      + roundHalfEven (num * unitsPerOne) (den * 2 ^ k)) := by
  have hstep : 0 < den * 2 ^ k := Nat.mul_pos hden (Nat.two_pow_pos k)
  have hunits := unitsOfCode_rounded hden hlow hhigh
  constructor
  · intro d
    rw [distance_eq num den hunits]
    rcases eq_steps_or_farther hden hlow d with ⟨m, hm⟩ | hlt
    · rw [distance_eq num den hm]
      exact dist_roundHalfEven_le hstep (num * unitsPerOne) m
    · exact Nat.le_of_lt hlt
  · intro d hne htie
    rw [distance_eq num den hunits] at htie
    rcases eq_steps_or_farther hden hlow d with ⟨m, hm⟩ | hlt
    · rw [distance_eq num den hm] at htie
      have hother : m ≠ roundHalfEven (num * unitsPerOne) (den * 2 ^ k) := by
        rintro rfl
        exact hne (unitsOfCode_strictMono.injective (hm.trans hunits.symm))
      have heven := roundHalfEven_even_of_dist_eq hstep hother htie
      simp only [fractionBits]
      omega
    · omega

end Binade

/-- A number of units lies below the end of its binade. -/
theorem lt_binade (q : Nat) :
    q < 2 * 2 ^ fractionBits * 2 ^ (q.log2 - fractionBits) := by
  rw [← next_binade, ← Nat.pow_add]
  calc q < 2 ^ (q.log2 + 1) := Nat.lt_log2_self
    _ ≤ 2 ^ (fractionBits + (q.log2 - fractionBits + 1)) :=
        Nat.pow_le_pow_right (by omega) (by omega)

/-- A number of units that is not below the first binade is not below its
own. -/
theorem binade_le {q : Nat} (h : q.log2 - fractionBits ≠ 0) :
    2 ^ fractionBits * 2 ^ (q.log2 - fractionBits) ≤ q := by
  have hq : q ≠ 0 := by
    rintro rfl
    exact h (by decide)
  rw [← Nat.pow_add, Nat.add_sub_cancel' (by omega)]
  exact Nat.log2_self_le hq

/-- No code is nearer to a quotient than the nearest code, which is even if
another one is as near. -/
theorem isNearest_nearestCode {den : Nat} (hden : 0 < den) (num : Nat) :
    IsNearest num den (nearestCode num den) := by
  apply isNearest_of_binade hden
  · by_cases hk : (num * unitsPerOne / den).log2 - fractionBits = 0
    · exact .inl hk
    · right
      have hle := Nat.mul_le_mul_right den (binade_le hk)
      rw [Nat.mul_assoc, Nat.mul_comm _ den] at hle
      exact Nat.le_trans hle (Nat.div_mul_le_self _ _)
  · have hlt := (Nat.div_lt_iff_lt_mul hden).mp (lt_binade (num * unitsPerOne / den))
    rwa [Nat.mul_assoc, Nat.mul_comm _ den] at hlt

/-- Less than half a unit is nearest to zero. -/
theorem nearestCode_eq_zero {num den : Nat}
    (h : 2 * (num * unitsPerOne) < den) : nearestCode num den = 0 := by
  have hdiv : num * unitsPerOne / den = 0 := Nat.div_eq_of_lt (by omega)
  have hmod : num * unitsPerOne % den = num * unitsPerOne :=
    Nat.mod_eq_of_lt (by omega)
  have hbinade : Nat.log2 0 - fractionBits = 0 := by decide
  rw [nearestCode]
  simp only [hdiv, hbinade]
  rw [Nat.zero_mul, Nat.zero_add, Nat.pow_zero, Nat.mul_one, roundHalfEven,
    hmod, if_pos h, hdiv]

theorem nearest_eq_zero (negative : Bool) {num den : Nat}
    (h : 2 * (num * unitsPerOne) < den) :
    nearest negative num den = ofCode negative 0 := by
  rw [nearest, nearestCode_eq_zero h, Nat.zero_min]

end Calculator.Double
