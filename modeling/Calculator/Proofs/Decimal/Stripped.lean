import Calculator.Decimal.Fixed
import Calculator.Proofs.Decimal.ReadBack

/-!
# Decimals without zeros at their end

A decimal can be shortened as a number: as long as the last digit of its
coefficient is a zero, that digit and its place are given up. Taking the zeros
and then the point off the end of its text is the same, and a text says minus
zero only if the number is zero.
-/

namespace Calculator

-- Powers of natural numbers are those of the core library.
attribute [local instance (2000)] instPowNat

namespace Decimal

/-! ## As a number -/

/-- The decimal `coefficient / 10 ^ places`, without zeros in its last
places. -/
def stripped (coefficient : Nat) : Nat → Decimal
  | 0 => ⟨coefficient, 0⟩
  | places + 1 =>
    if coefficient % 10 = 0 then stripped (coefficient / 10) places
    else ⟨coefficient, places + 1⟩

/-- Stripping zeros keeps the number. -/
theorem stripped_coefficient_mul (coefficient places : Nat) :
    (stripped coefficient places).coefficient * 10 ^ places
      = coefficient * 10 ^ (stripped coefficient places).places := by
  induction places generalizing coefficient with
  | zero => rfl
  | succ places ih =>
      unfold stripped
      split
      · rename_i hzero
        have hdiv : coefficient = coefficient / 10 * 10 := by omega
        rw [Nat.pow_succ, ← Nat.mul_assoc, ih, Nat.mul_right_comm, ← hdiv]
      · rfl

theorem stripped_places_le (coefficient places : Nat) :
    (stripped coefficient places).places ≤ places := by
  induction places generalizing coefficient with
  | zero => exact Nat.le_refl 0
  | succ places ih =>
      unfold stripped
      split
      · exact Nat.le_succ_of_le (ih _)
      · exact Nat.le_refl _

/-- A stripped decimal with places does not end in a zero. -/
theorem stripped_coefficient_mod_ten {coefficient places : Nat}
    (h : (stripped coefficient places).places ≠ 0) :
    (stripped coefficient places).coefficient % 10 ≠ 0 := by
  induction places generalizing coefficient with
  | zero => exact absurd rfl h
  | succ places ih =>
      unfold stripped at h ⊢
      split at h
      · rename_i hzero
        rw [if_pos hzero]
        exact ih h
      · rename_i hzero
        rw [if_neg hzero]
        exact hzero

/-! ## In the text -/

/-- One more place stands behind the point that comes with the first. -/
theorem signedChars_succ (negative : Bool) (coefficient places : Nat) :
    signedChars negative ⟨coefficient, places + 1⟩
      = signedChars negative ⟨coefficient / 10, places⟩
        ++ (if places = 0 then ['.'] else []) ++ [(coefficient % 10).digitChar] := by
  have hchars : chars ⟨coefficient, places + 1⟩ = chars ⟨coefficient / 10, places⟩
      ++ (if places = 0 then ['.'] else []) ++ [(coefficient % 10).digitChar] := by
    rw [chars, chars, whole_succ, if_neg (Nat.succ_ne_zero places), fractionDigits_succ]
    split
    · simp
    · simp
  cases negative with
  | false => exact hchars
  | true => exact congrArg ('-' :: ·) hchars

theorem point_mem_signedChars (negative : Bool) (coefficient places : Nat) :
    '.' ∈ signedChars negative ⟨coefficient, places + 1⟩ := by
  have hpoint : '.' ∈ chars ⟨coefficient, places + 1⟩ := by
    simp [chars]
  cases negative with
  | false => exact hpoint
  | true => exact List.mem_cons_of_mem _ hpoint

theorem point_not_mem_signedChars (negative : Bool) (coefficient : Nat) :
    '.' ∉ signedChars negative ⟨coefficient, 0⟩ := by
  have hpoint : '.' ∉ chars ⟨coefficient, 0⟩ := by
    intro h
    rw [chars, if_pos rfl, List.append_nil] at h
    exact absurd (isDigit_of_mem_whole _ '.' h) (by decide)
  cases negative with
  | false => exact hpoint
  | true => exact fun h => hpoint (List.mem_of_ne_of_mem (by decide) h)

theorem digitChar_ne_point {n : Nat} (h : n < 10) : n.digitChar ≠ '.' := by
  intro hpoint
  have hdigit : n.digitChar.isDigit = true :=
    Nat.isDigit_digitChar.trans (decide_eq_true h)
  rw [hpoint] at hdigit
  exact absurd hdigit (by decide)

/-- Zeros and point are taken off the text as they are off the number. -/
theorem withoutEndZeros_signedChars (negative : Bool) (coefficient places : Nat) :
    withoutEndZeros (signedChars negative ⟨coefficient, places⟩)
      = (stripped coefficient places).signedChars negative := by
  induction places generalizing coefficient with
  | zero =>
      exact withoutEndZeros_eq_self (point_not_mem_signedChars negative coefficient)
  | succ places ih =>
      unfold stripped
      by_cases hzero : coefficient % 10 = 0
      · rw [if_pos hzero, ← ih, signedChars_succ, hzero]
        cases places with
        | zero =>
            -- the last zero stands behind the point, which goes with it
            have hpoint := point_not_mem_signedChars negative (coefficient / 10)
            have hlast : (signedChars negative ⟨coefficient / 10, 0⟩).getLast? ≠ some '.' :=
              fun h => hpoint (List.mem_of_getLast? h)
            rw [withoutEndZeros_eq_self hpoint]
            exact (withoutEndZeros_append_zero (by simp)).trans
              (withoutEndZeros_append_point hlast)
        | succ places =>
            rw [if_neg (Nat.succ_ne_zero places), List.append_nil]
            exact withoutEndZeros_append_zero (point_mem_signedChars negative _ places)
      · have hpoint := digitChar_ne_point (Nat.mod_lt coefficient (by decide : 0 < 10))
        rw [if_neg hzero, signedChars_succ]
        exact withoutEndZeros_append_of_ne (mt Nat.digitChar_eq_zero.mp hzero) hpoint _

/-- Only zero is written as zero. -/
theorem coefficient_of_chars_eq_zero {d : Decimal} (h : d.chars = ['0']) :
    d.coefficient = 0 := by
  have hread := d.unsigned?_chars
  rw [h] at hread
  have hzero : Literal.unsigned? ['0'] = some (0, 0) := by decide
  rw [hzero] at hread
  exact (congrArg Prod.fst (Option.some.inj hread)).symm

/-- A stripped decimal loses its sign if it is zero. -/
theorem withoutZeroSign_signedChars (negative : Bool) {d : Decimal}
    (hlast : d.places ≠ 0 → d.coefficient % 10 ≠ 0) :
    withoutZeroSign (d.signedChars negative)
      = d.signedChars (negative && d.coefficient != 0) := by
  cases negative with
  | false =>
      exact if_neg (Literal.numerals_ne_cons d.numerals_chars (by decide))
  | true =>
      by_cases hzero : d.coefficient = 0
      · have hplaces : d.places = 0 := by
          by_contra h
          exact hlast h (by rw [hzero])
        obtain ⟨coefficient, places⟩ := d
        subst hzero hplaces
        rfl
      · have hne : '-' :: d.chars ≠ ['-', '0'] := by
          intro h
          exact hzero (coefficient_of_chars_eq_zero (List.cons.inj h).2)
        rw [Bool.true_and, bne_iff_ne.mpr hzero]
        exact if_neg hne

end Decimal

end Calculator
