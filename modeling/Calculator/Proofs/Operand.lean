import Calculator.Proofs.Decimal.Text
import Calculator.Proofs.Double.Finite
import Calculator.Proofs.Rpn.Conserved
import Calculator.Proofs.Written

/-!
# What an operand is read as

A scan delimits the operands and the evaluator reads them, with a reader that
knows more forms of literals than a scan can give. Of the texts that do come out
of a scan, those without a digit or with a second point are refused. Any other
denotes a rational number, and it is read as the finite double that this number is
rounded to, unless the number is too large for that.
-/

namespace Calculator

open Decimal Double

-- Powers of natural numbers are those of the core library.
attribute [local instance (2000)] instPowNat

/-! ## Behind a sign -/

section Sign

variable {sign body : List Char} (hsign : sign = [] ∨ sign = ['-'])

include hsign

theorem spellsNumber_sign_iff : SpellsNumber (sign ++ body) ↔ SpellsNumber body := by
  rcases hsign with rfl | rfl
  · rfl
  · have hminus : '-'.isDigit = false := by decide
    simp [SpellsNumber, hminus]

variable (hbody : Numerals body)

include hbody

theorem head?_sign_eq_minus_iff :
    (sign ++ body).head? = some '-' ↔ sign = ['-'] := by
  rcases hsign with rfl | rfl
  · cases body with
    | nil => simp
    | cons c body =>
        have hc : c ≠ '-' := by
          rintro rfl
          exact Literal.numerals_ne_cons hbody (by decide) rfl
        simp [hc]
  · simp

theorem denoted_sign :
    denoted (sign ++ body)
      = if sign = ['-'] then -unsignedNumber body else unsignedNumber body := by
  rcases hsign with rfl | rfl
  · unfold denoted
    split
    · rename_i cs heq
      exact absurd heq (Literal.numerals_ne_cons hbody (by decide))
    · rfl
  · rfl

end Sign

/-! ## The number of an operand -/

/-- A decimal is read as the double of its nearest code, if this is finite. -/
theorem readNumber_of_decimal {text : String} {negative : Bool} {coefficient places : Nat}
    (h : Literal.ofChars? text.toList
      = some (.number negative coefficient (-(places : Int)))) :
    readNumber text =
      if nearestCode coefficient (10 ^ places) < infinityCode then
        .ok (ofCode negative (nearestCode coefficient (10 ^ places)))
      else .error (.nonFiniteNumber text) := by
  rw [readNumber, h]
  show (if (Literal.toFloat _).isFinite then _ else _) = _
  rw [Literal.toFloat_decimal, nearest]
  by_cases hlt : nearestCode coefficient (10 ^ places) < infinityCode
  · have hcode := code_ofCode (Nat.le_of_lt hlt) negative
    rw [if_pos hlt, Nat.min_eq_left (Nat.le_of_lt hlt), if_pos (isFinite_iff.mpr (by rwa [hcode]))]
  · have hcode := code_ofCode (Nat.le_refl infinityCode) negative
    rw [if_neg hlt, Nat.min_eq_right (Nat.le_of_not_lt hlt),
      if_neg (fun hfinite => Nat.lt_irrefl _ (hcode ▸ isFinite_iff.mp hfinite))]

/-- An operand that spells a number denotes the quotient that it is taken apart
into. -/
theorem Token.IsOperand.exists_quotient {cs : List Char} (h : Token.IsOperand cs)
    (hspells : SpellsNumber cs) :
    ∃ (negative : Bool) (coefficient places : Nat),
      Literal.ofChars? cs = some (.number negative coefficient (-(places : Int))) ∧
      denoted cs = signedQuotient negative coefficient (10 ^ places) ∧
      (negative = true ↔ cs.head? = some '-') := by
  obtain ⟨sign, body, rfl, hsign, hbody⟩ := h.exists_sign
  obtain ⟨coefficient, places, hread, hnumber⟩ :=
    exists_unsigned?_eq hbody ((spellsNumber_sign_iff hsign).mp hspells)
  refine ⟨decide (sign = ['-']), coefficient, places, ?_, ?_, ?_⟩
  · rw [Literal.ofChars?_sign hsign hbody, hread]
    rfl
  · have hcast : ((10 ^ places : Nat) : ℚ) = 10 ^ places := Nat.cast_pow 10 places
    rw [denoted_sign hsign hbody, hnumber, signedQuotient, hcast]
    simp
  · rw [head?_sign_eq_minus_iff hsign hbody, decide_eq_true_iff]

section Operand

variable {text : String} (h : Token.IsOperand text.toList)

include h

theorem readNumber_of_not_spells (hspells : ¬ SpellsNumber text.toList) :
    readNumber text = .error (.unreadableNumber text .malformed) := by
  obtain ⟨sign, body, htext, hsign, hbody⟩ := h.exists_sign
  have hnone : Literal.ofChars? text.toList = none := by
    rw [htext, spellsNumber_sign_iff hsign] at hspells
    rw [htext]
    exact (Literal.ofChars?_eq_none_iff hsign hbody).mpr hspells
  have hne : text ≠ "" := by
    rintro rfl
    exact absurd h (by decide)
  rw [readNumber, hnone, if_neg hne]

section Spells

variable (hspells : SpellsNumber text.toList)

include hspells

theorem readNumber_ne_unreadable (other : String) (fault : LiteralFault) :
    readNumber text ≠ .error (.unreadableNumber other fault) := by
  obtain ⟨negative, coefficient, places, hread, _⟩ := h.exists_quotient hspells
  rw [readNumber_of_decimal hread]
  split <;> simp

/-- A number is too large from the bound on. -/
theorem readNumber_eq_nonFinite_iff :
    readNumber text = .error (.nonFiniteNumber text) ↔
      overflowThreshold ≤ |denoted text.toList| := by
  obtain ⟨negative, coefficient, places, hread, hdenoted, _⟩ := h.exists_quotient hspells
  rw [readNumber_of_decimal hread, hdenoted, abs_signedQuotient,
    ← infinityCode_le_nearestCode_iff (ten_pow_pos places)]
  split
  · rename_i hlt
    simpa using hlt
  · rename_i hle
    simpa using hle

/-- Below the bound the value is the nearest double. -/
theorem exists_roundsToDouble_of_lt (hlt : |denoted text.toList| < overflowThreshold) :
    ∃ v, readNumber text = .ok v ∧ RoundsToDouble (denoted text.toList) v ∧
      (isNegative v = true ↔ text.toList.head? = some '-') := by
  obtain ⟨negative, coefficient, places, hread, hdenoted, hsign⟩ :=
    h.exists_quotient hspells
  have hden := ten_pow_pos places
  rw [hdenoted, abs_signedQuotient, ← not_le, ← infinityCode_le_nearestCode_iff hden,
    Nat.not_le] at hlt
  rw [readNumber_of_decimal hread, if_pos hlt, hdenoted, ← hsign]
  refine ⟨_, rfl, roundsToDouble_nearestCode hden hlt negative, ?_⟩
  rw [isNegative_ofCode (Nat.le_of_lt hlt)]

end Spells

end Operand

/-! ## The operands of an input -/

/-- **What an operand is read as**: every operand of an input is made of digits and
points behind a minus sign or none. Without a digit, or with a second point, it is
refused as malformed, and never as empty. Otherwise it is read as the number it
denotes, and not as an infinity or no number: from the bound of the finite doubles
on it is refused as too large, and below it its value is the nearest double, with
its own sign. The conversion hands no other operands on to the evaluator. -/
theorem readNumber_of_scan {input text : String} {ts : List Token}
    (hscan : Token.scan input = .ok ts) (hmem : .number text ∈ ts) :
    (∃ sign body, text.toList = sign ++ body ∧ (sign = [] ∨ sign = ['-']) ∧
      Numerals body) ∧
    (readNumber text = .error (.unreadableNumber text .malformed) ↔
      ¬ SpellsNumber text.toList) ∧
    (∀ other, readNumber text ≠ .error (.unreadableNumber other .empty)) ∧
    (SpellsNumber text.toList →
      (∃ negative coefficient, ∃ places : Nat, Literal.ofChars? text.toList
        = some (.number negative coefficient (-(places : Int)))) ∧
      (readNumber text = .error (.nonFiniteNumber text) ↔
        overflowThreshold ≤ |denoted text.toList|) ∧
      (|denoted text.toList| < overflowThreshold →
        ∃ v, readNumber text = .ok v ∧ RoundsToDouble (denoted text.toList) v ∧
          (isNegative v = true ↔ text.toList.head? = some '-'))) ∧
    ∀ other, .number other ∈ Rpn.ofInfix ts → .number other ∈ ts := by
  have hoperand := (Token.scan_eq_ok_iff.mp hscan).1.isOperand hmem
  have hkept : ∀ other, .number other ∈ Rpn.ofInfix ts → .number other ∈ ts := by
    intro other hother
    have hnumbers : .number other ∈ (Rpn.ofInfix ts).filter Token.isNumber :=
      List.mem_filter.mpr ⟨hother, rfl⟩
    rw [Rpn.filter_isNumber_ofInfix] at hnumbers
    exact (List.mem_filter.mp hnumbers).1
  refine ⟨hoperand.exists_sign, ⟨?_, readNumber_of_not_spells hoperand⟩, ?_, ?_, hkept⟩
  · intro hread hspells
    exact readNumber_ne_unreadable hoperand hspells text .malformed hread
  · intro other
    by_cases hspells : SpellsNumber text.toList
    · exact readNumber_ne_unreadable hoperand hspells other .empty
    · rw [readNumber_of_not_spells hoperand hspells]
      simp
  · intro hspells
    obtain ⟨negative, coefficient, places, hread, _⟩ := hoperand.exists_quotient hspells
    exact ⟨⟨negative, coefficient, places, hread⟩,
      readNumber_eq_nonFinite_iff hoperand hspells,
      exists_roundsToDouble_of_lt hoperand hspells⟩

/-- An operand without a digit before the point, behind a sign: it is read as the
double nearest to minus one tenth. -/
theorem readNumber_of_scan_tenth :
    (∃ ts, Token.scan "1.2.3/(4--.1)" = .ok ts ∧ .number "-.1" ∈ ts) ∧
    SpellsNumber "-.1".toList ∧
    ∃ v, readNumber "-.1" = .ok v ∧ RoundsToDouble (-1 / 10) v ∧ isNegative v = true := by
  let ts : List Token := [.number "1.2.3", .op .div, .lpar, .number "4", .op .sub,
    .number "-.1", .rpar]
  have hscan : Token.scan "1.2.3/(4--.1)" = .ok ts :=
    Token.scan_eq_ok_iff.mpr (by decide +kernel)
  have hmem : .number "-.1" ∈ ts := by decide
  have hspells : SpellsNumber "-.1".toList := ⟨by decide +kernel, '1', by decide +kernel, rfl⟩
  have hdenoted : denoted "-.1".toList = -1 / 10 := by decide +kernel
  have hsmall : |(-1 / 10 : ℚ)| < overflowThreshold := by decide +kernel
  obtain ⟨_, _, _, hread, _⟩ := readNumber_of_scan hscan hmem
  obtain ⟨_, _, hvalue⟩ := hread hspells
  rw [hdenoted] at hvalue
  obtain ⟨v, hv, hrounds, hsign⟩ := hvalue hsmall
  exact ⟨⟨ts, hscan, hmem⟩, hspells, v, hv, hrounds, hsign.mpr (by decide +kernel)⟩

end Calculator
