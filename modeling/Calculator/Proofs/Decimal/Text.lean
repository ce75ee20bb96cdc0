import Calculator.Proofs.Decimal.ReadBack
import Mathlib.Algebra.Order.Field.Rat
import Mathlib.Computability.RegularExpressions
import Mathlib.Tactic.IntervalCases
import Mathlib.Tactic.NormNum

/-!
# The text of a decimal

Digits with at most one point, behind a minus sign or none, denote a rational
number. Many texts denote the same one; a canonical text has no zero that could
be left out and no point without decimals. A written decimal denotes its number,
and its text is canonical if its last place does not hold a zero.
-/

namespace Calculator.Decimal

-- Powers of natural numbers are those of the core library.
attribute [local instance (2000)] instPowNat

/-! ## The number denoted -/

def beforePoint (cs : List Char) : List Char :=
  cs.takeWhile (· != '.')

def afterPoint (cs : List Char) : List Char :=
  (cs.dropWhile (· != '.')).tail

/-- The number that digits with at most one point denote. -/
def unsignedNumber (cs : List Char) : ℚ :=
  Nat.ofDigitChars 10 (beforePoint cs) 0
    + Nat.ofDigitChars 10 (afterPoint cs) 0 / 10 ^ (afterPoint cs).length

/-- The number that such a text denotes behind a minus sign or none. -/
def denoted : List Char → ℚ
  | '-' :: cs => -unsignedNumber cs
  | cs => unsignedNumber cs

theorem ne_point_of_isDigit {cs : List Char} (h : ∀ c ∈ cs, c.isDigit = true) :
    ∀ c ∈ cs, (c != '.') = true := by
  intro c hc
  rw [bne_iff_ne]
  rintro rfl
  exact absurd (h '.' hc) (by decide)

theorem beforePoint_chars (d : Decimal) : beforePoint d.chars = Nat.toDigits 10 d.whole := by
  have hwhole := ne_point_of_isDigit d.isDigit_of_mem_whole
  rw [beforePoint, chars]
  split
  · exact takeWhile_run hwhole (by simp)
  · exact takeWhile_run hwhole (by simp)

theorem afterPoint_chars (d : Decimal) :
    afterPoint d.chars = if d.places = 0 then [] else d.fractionDigits := by
  have hwhole := ne_point_of_isDigit d.isDigit_of_mem_whole
  rw [afterPoint, chars]
  split
  · rw [dropWhile_run hwhole (by simp)]
    rfl
  · rw [dropWhile_run hwhole (by simp)]
    rfl

/-- There are as many decimals as places. -/
theorem length_afterPoint_chars (d : Decimal) : (afterPoint d.chars).length = d.places := by
  rw [afterPoint_chars]
  split
  · rename_i h
    exact h.symm
  · rename_i h
    exact length_fractionDigits h

theorem ofDigitChars_afterPoint_chars (d : Decimal) :
    Nat.ofDigitChars 10 (afterPoint d.chars) 0 = d.fraction := by
  rw [afterPoint_chars]
  split
  · rename_i h
    rw [fraction, h, Nat.pow_zero, Nat.mod_one]
    rfl
  · rw [ofDigitChars_fractionDigits, Nat.mul_zero, Nat.zero_add]

theorem ten_pow_ne_zero (places : Nat) : (10 : ℚ) ^ places ≠ 0 :=
  pow_ne_zero places (by norm_num)

theorem whole_add_fraction (d : Decimal) :
    (d.whole : ℚ) + d.fraction / 10 ^ d.places = d.coefficient / 10 ^ d.places := by
  have hcoefficient : (d.coefficient : ℚ) = d.whole * 10 ^ d.places + d.fraction := by
    have hnat := Nat.div_add_mod' d.coefficient (10 ^ d.places)
    exact_mod_cast hnat.symm
  rw [hcoefficient, add_div, mul_div_cancel_right₀ _ (ten_pow_ne_zero _)]

/-- A decimal is written as the number it is. -/
theorem unsignedNumber_chars (d : Decimal) :
    unsignedNumber d.chars = d.coefficient / 10 ^ d.places := by
  rw [unsignedNumber, beforePoint_chars, Nat.ofDigitChars_ten_toDigits,
    ofDigitChars_afterPoint_chars, length_afterPoint_chars, whole_add_fraction]

/-- Digits with at most one point are read as the number that they denote. -/
theorem exists_unsigned?_eq {cs : List Char} (h : Numerals cs) (hspells : SpellsNumber cs) :
    ∃ coefficient places : Nat,
      Literal.unsigned? cs = some (coefficient, -(places : Int)) ∧
        unsignedNumber cs = coefficient / 10 ^ places := by
  rcases Literal.digits_or_point h with hall | ⟨whole, rest, rfl, hwhole, hrest⟩
  · have hne : cs ≠ [] := (Literal.exists_digit_iff hall).mp hspells.2
    have hbefore : beforePoint cs = cs := takeWhile_whole (ne_point_of_isDigit hall)
    have hafter : afterPoint cs = [] :=
      congrArg List.tail (dropWhile_whole (ne_point_of_isDigit hall))
    refine ⟨Nat.ofDigitChars 10 cs 0, 0, ?_, ?_⟩
    · rw [Literal.unsigned?_digits hall, if_neg hne]
      rfl
    · rw [unsignedNumber, hbefore, hafter]
      simp
  · rcases Literal.digits_or_point hrest with hfraction | ⟨fraction, rest, rfl, hfraction, _⟩
    · have hbefore : beforePoint (whole ++ '.' :: rest) = whole :=
        takeWhile_run (ne_point_of_isDigit hwhole) (by simp)
      have hafter : afterPoint (whole ++ '.' :: rest) = rest :=
        congrArg List.tail (dropWhile_run (ne_point_of_isDigit hwhole) (by simp))
      have hne : ¬ (whole = [] ∧ rest = []) :=
        (Literal.exists_digit_point_iff hwhole hfraction).mp hspells.2
      refine ⟨Nat.ofDigitChars 10 (whole ++ rest) 0, rest.length, ?_, ?_⟩
      · rw [Literal.unsigned?_point hwhole hfraction, if_neg hne]
      · have hdigits : Nat.ofDigitChars 10 (whole ++ rest) 0 = 10 ^ rest.length
            * Nat.ofDigitChars 10 whole 0 + Nat.ofDigitChars 10 rest 0 :=
          (Nat.ofDigitChars_append ..).trans (Nat.ofDigitChars_eq_ofDigitChars_zero ..)
        have hcast : ((Nat.ofDigitChars 10 (whole ++ rest) 0 : Nat) : ℚ)
            = 10 ^ rest.length * (Nat.ofDigitChars 10 whole 0 : Nat)
              + (Nat.ofDigitChars 10 rest 0 : Nat) := by
          rw [hdigits]
          exact_mod_cast rfl
        rw [unsignedNumber, hbefore, hafter, hcast, add_div,
          mul_div_cancel_left₀ _ (ten_pow_ne_zero _)]
    · -- with a second point they are not read at all
      have hnone := Literal.unsigned?_two_points hwhole hfraction rest
      exact absurd hspells ((Literal.unsigned?_eq_none_iff h).mp hnone)

theorem denoted_signedChars (negative : Bool) (d : Decimal) :
    denoted (d.signedChars negative)
      = if negative then -(d.coefficient / 10 ^ d.places : ℚ)
        else d.coefficient / 10 ^ d.places := by
  cases negative with
  | false =>
      have hunsigned : denoted d.chars = unsignedNumber d.chars := by
        unfold denoted
        split
        · rename_i cs heq
          exact absurd heq (Literal.numerals_ne_cons d.numerals_chars (by decide))
        · rfl
      exact hunsigned.trans d.unsignedNumber_chars
  | true => exact congrArg Neg.neg d.unsignedNumber_chars

theorem afterPoint_signedChars (negative : Bool) (d : Decimal) :
    afterPoint (d.signedChars negative) = afterPoint d.chars := by
  cases negative with
  | false => rfl
  | true => rfl

/-! ## Canonical texts -/

open RegularExpression

def nonzeroDigit : RegularExpression Char :=
  ("123456789".toList.map char).sum

def digit : RegularExpression Char :=
  char '0' + nonzeroDigit

/-- `-?(0|[1-9][0-9]*)(.[0-9]*[1-9])?`, where the point stands for itself. -/
def canonical : RegularExpression Char :=
  (1 + char '-') * (char '0' + nonzeroDigit * digit.star)
    * (1 + char '.' * digit.star * nonzeroDigit)

theorem mem_nonzeroDigit {c : Char} (h : c.isDigit = true) (hc : c ≠ '0') :
    [c] ∈ nonzeroDigit.matches' := by
  obtain ⟨hlow, hhigh⟩ : 48 ≤ c.toNat ∧ c.toNat ≤ 57 := Char.isDigit_iff_toNat.mp h
  rw [← rmatch_iff_matches', ← Char.ofNat_toNat c]
  rw [← Char.ofNat_toNat c] at hc
  interval_cases c.toNat
  · exact absurd rfl hc
  all_goals decide

theorem mem_digit {c : Char} (h : c.isDigit = true) : [c] ∈ digit.matches' := by
  by_cases hc : c = '0'
  · subst hc
    exact .inl rfl
  · exact .inr (mem_nonzeroDigit h hc)

theorem mem_digit_star {cs : List Char} (h : ∀ c ∈ cs, c.isDigit = true) :
    cs ∈ digit.star.matches' := by
  refine Language.mem_kstar.mpr ⟨cs.map ([·]), cs.flatMap_singleton'.symm, ?_⟩
  intro word hword
  obtain ⟨c, hc, rfl⟩ := List.mem_map.mp hword
  exact mem_digit (h c hc)

/-- The digits of a positive number begin with none that could be left out. -/
theorem exists_toDigits_eq_cons {n : Nat} (h : 0 < n) :
    ∃ c cs, Nat.toDigits 10 n = c :: cs ∧ c ≠ '0' := by
  induction n using Nat.strongRecOn with
  | ind n ih =>
      by_cases hlt : n < 10
      · refine ⟨n.digitChar, [], Nat.toDigits_of_lt_base hlt, fun hzero => ?_⟩
        exact Nat.ne_of_gt h (Nat.digitChar_eq_zero.mp hzero)
      · obtain ⟨c, cs, heq, hc⟩ := ih (n / 10) (by omega) (by omega)
        refine ⟨c, cs ++ [(n % 10).digitChar], ?_, hc⟩
        rw [Nat.toDigits_of_base_le (by decide) (by omega), heq]
        rfl

theorem whole_mem (d : Decimal) :
    Nat.toDigits 10 d.whole ∈ (char '0' + nonzeroDigit * digit.star).matches' := by
  rcases Nat.eq_zero_or_pos d.whole with hzero | hpos
  · rw [hzero]
    exact .inl rfl
  · obtain ⟨c, cs, heq, hc⟩ := exists_toDigits_eq_cons hpos
    have hdigit := d.isDigit_of_mem_whole
    rw [heq] at hdigit ⊢
    refine .inr (Language.append_mem_mul (a := [c]) ?_ ?_)
    · exact mem_nonzeroDigit (hdigit c (by simp)) hc
    · exact mem_digit_star fun d hd => hdigit d (by simp [hd])

theorem fraction_mem {d : Decimal} (h : d.places ≠ 0) (hlast : d.coefficient % 10 ≠ 0) :
    '.' :: d.fractionDigits ∈ (char '.' * digit.star * nonzeroDigit).matches' := by
  obtain ⟨front, heq⟩ := exists_fractionDigits_eq_append h
  have hdigit := d.isDigit_of_mem_fractionDigits
  rw [heq] at hdigit ⊢
  refine Language.append_mem_mul (a := '.' :: front) ?_ ?_
  · refine Language.append_mem_mul (a := ['.']) rfl ?_
    exact mem_digit_star fun c hc => hdigit c (by simp [hc])
  · refine mem_nonzeroDigit (hdigit _ (by simp)) fun hzero => ?_
    exact hlast (Nat.digitChar_eq_zero.mp hzero)

/-- Without a zero in its last place a decimal is written canonically. -/
theorem signedChars_mem_canonical (negative : Bool) {d : Decimal}
    (hlast : d.places ≠ 0 → d.coefficient % 10 ≠ 0) :
    d.signedChars negative ∈ canonical.matches' := by
  obtain ⟨sign, heq, hsign, _⟩ := d.exists_sign negative
  rw [heq, chars, ← List.append_assoc]
  refine Language.append_mem_mul (Language.append_mem_mul ?_ d.whole_mem) ?_
  · rcases hsign with rfl | rfl
    · exact .inl rfl
    · exact .inr rfl
  · split
    · exact .inl rfl
    · rename_i hplaces
      exact .inr (fraction_mem hplaces (hlast hplaces))

end Calculator.Decimal
