import Calculator.Decimal.Fixed
import Calculator.Proofs.Decimal.ReadBack
import Calculator.Proofs.Decimal.Stripped
import Calculator.Proofs.Double.Bits
import Calculator.Proofs.Layout
import Calculator.Proofs.Written

/-!
# The display can be typed back

The text of a finite value at some number of places is a literal, so it can
be entered again between parentheses. Its value is the double nearest to the
rounded decimal, which in general is not the value that was shown. But it is
at least as near to that decimal, so it is rounded to the same decimal and
shown with the same text.
-/

namespace Calculator

-- Powers of natural numbers are those of the core library.
attribute [local instance (2000)] instPowNat

/-! ## Entering a literal -/

theorem scan_literal {cs : List Char} (h : IsLiteral cs) :
    Token.scan (String.ofList cs) = .ok [.number (String.ofList cs)] := by
  have hjoined : Token.joined [.number (String.ofList cs)] = String.ofList cs := by
    apply String.toList_injective
    simp [Token.chars]
  have hscan := Token.scan_joined_eq_ok_iff.mpr (Token.canonical_literal h)
  rwa [hjoined] at hscan

/-- The value of a literal between parentheses is that of the literal. -/
theorem evaluate_parenthesised {cs : List Char} (h : IsLiteral cs) :
    evaluate ("(" ++ String.ofList cs ++ ")") = readNumber (String.ofList cs) := by
  let ts : List Token := .lpar :: [.number (String.ofList cs)] ++ [.rpar]
  have hjoined : "(" ++ String.ofList cs ++ ")" = Token.joined ts := by
    apply String.toList_injective
    simp [ts, Token.chars, Symbol.char]
  have hreads : Reads .sum ts (.number (String.ofList cs)) :=
    (Reads.group (Reads.number _).toSum).toSum
  have hread := readExpression_joined
    (Token.canonical_group_iff.mpr (Token.canonical_literal h))
    hreads.isExpression (by simp)
  rw [hjoined, evaluate_eq_value hread hreads]
  rfl

namespace Double

/-! ## The double nearest to what is shown -/

/-- The magnitude of a finite value, rounded to a number of places and without
zeros in the last of them. -/
def roundedTo (v : Float) (places : Nat) : Decimal :=
  Decimal.stripped (roundHalfEven (units v * 10 ^ places) unitsPerOne) places

/-- The code nearest to a value rounded to some number of places. -/
def shownCode (v : Float) (places : Nat) : Nat :=
  nearestCode (roundedTo v places).coefficient (10 ^ (roundedTo v places).places)

/-- Whether a value rounded to some number of places is written with a sign. -/
def shownNegative (v : Float) (places : Nat) : Bool :=
  isNegative v && (roundedTo v places).coefficient != 0

/-- The double that the text of a value stands for. -/
def shown (v : Float) (places : Nat) : Float :=
  ofCode (shownNegative v places) (shownCode v places)

/-- The magnitudes of two values are at most one unit of the last place
apart. -/
def WithinLastPlace (places : Nat) (v w : Float) : Prop :=
  Nat.dist (units v * 10 ^ places) (units w * 10 ^ places) ≤ unitsPerOne

/-- The rounded value, with the zeros put back that are left out of it. -/
theorem coefficient_mul_pow (v : Float) (places : Nat) :
    (roundedTo v places).coefficient * 10 ^ (places - (roundedTo v places).places)
      = roundHalfEven (units v * 10 ^ places) unitsPerOne := by
  have hplaces : (roundedTo v places).places ≤ places :=
    Decimal.stripped_places_le _ places
  apply Nat.eq_of_mul_eq_mul_right (Decimal.ten_pow_pos (roundedTo v places).places)
  rw [Nat.mul_assoc, ← Nat.pow_add, Nat.sub_add_cancel hplaces]
  exact Decimal.stripped_coefficient_mul _ places

/-- The nearest double is at least as near to the rounded value as the value
itself. -/
theorem dist_shownCode_le (v : Float) (places : Nat) :
    let rounded := roundHalfEven (units v * 10 ^ places) unitsPerOne * unitsPerOne
    Nat.dist rounded (unitsOfCode (shownCode v places) * 10 ^ places)
      ≤ Nat.dist rounded (units v * 10 ^ places) := by
  intro rounded
  have hplaces : (roundedTo v places).places ≤ places :=
    Decimal.stripped_places_le _ places
  have hnearest := (isNearest_nearestCode
    (Decimal.ten_pow_pos (roundedTo v places).places)
    (roundedTo v places).coefficient).distance_le (code v)
  -- both sides, on all places instead of those that are written
  have hunits : ∀ u, u * 10 ^ (roundedTo v places).places
      * 10 ^ (places - (roundedTo v places).places) = u * 10 ^ places := by
    intro u
    rw [Nat.mul_assoc, ← Nat.pow_add, Nat.add_sub_cancel' hplaces]
  have hrounded : (roundedTo v places).coefficient * unitsPerOne
      * 10 ^ (places - (roundedTo v places).places) = rounded := by
    rw [Nat.mul_right_comm, coefficient_mul_pow]
  have hscaled := Nat.mul_le_mul_right
    (10 ^ (places - (roundedTo v places).places)) hnearest
  simp only [distance] at hscaled
  rw [← Nat.dist_mul_right, ← Nat.dist_mul_right, hunits, hunits, hrounded]
    at hscaled
  rw [Nat.dist_comm rounded, Nat.dist_comm rounded]
  exact hscaled

/-- Value and nearest double are both at most half a unit of the last place
away from the rounded value. -/
theorem dist_units_shownCode_le (v : Float) (places : Nat) :
    Nat.dist (units v * 10 ^ places) (unitsOfCode (shownCode v places) * 10 ^ places)
      ≤ unitsPerOne := by
  have hhalf := two_mul_dist_roundHalfEven unitsPerOne_pos (units v * 10 ^ places)
  have hnear := dist_shownCode_le v places
  have htriangle := Nat.dist.triangle_inequality (units v * 10 ^ places)
    (roundHalfEven (units v * 10 ^ places) unitsPerOne * unitsPerOne)
    (unitsOfCode (shownCode v places) * 10 ^ places)
  rw [Nat.dist_comm (units v * 10 ^ places) (roundHalfEven _ _ * _)] at htriangle
  omega

section Finite

variable {v : Float} (hv : v.isFinite = true) (places : Nat)

include hv

/-- Rounding a finite value does not lead beyond the finite doubles. -/
theorem shownCode_lt : shownCode v places < infinityCode := by
  by_contra hle
  have hfar : unitsPerOne < Nat.dist (units v) (unitsOfCode (shownCode v places)) := by
    have hgap := unitsOfCode_add_lt_infinity (isFinite_iff.mp hv)
    have hmono := unitsOfCode_strictMono.monotone (Nat.le_of_not_lt hle)
    unfold Nat.dist units
    omega
  have hscaled := Nat.le_mul_of_pos_right
    (Nat.dist (units v) (unitsOfCode (shownCode v places)))
    (Decimal.ten_pow_pos places)
  have hnear := dist_units_shownCode_le v places
  rw [Nat.dist_mul_right] at hnear
  omega

theorem units_shown : units (shown v places) = unitsOfCode (shownCode v places) := by
  rw [units, shown, code_ofCode (Nat.le_of_lt (shownCode_lt hv places))]

theorem isFinite_shown : (shown v places).isFinite = true := by
  have hlt := shownCode_lt hv places
  rw [isFinite_iff, shown, code_ofCode (Nat.le_of_lt hlt)]
  exact hlt

/-- The double that is shown is rounded as the value was. -/
theorem roundedTo_shown : roundedTo (shown v places) places = roundedTo v places := by
  have hround := roundHalfEven_eq_of_nearer unitsPerOne_pos
    (dist_shownCode_le v places)
  rw [roundedTo, units_shown hv, hround]
  rfl

/-- The text is written from the rounded value alone. -/
theorem fixedText_eq :
    fixedText v places
      = String.ofList ((roundedTo v places).signedChars (shownNegative v places)) := by
  have hstripped : withoutEndZeros (plainChars v places)
      = (roundedTo v places).signedChars (isNegative v) :=
    Decimal.withoutEndZeros_signedChars _ _ _
  have hsign : withoutZeroSign ((roundedTo v places).signedChars (isNegative v))
      = (roundedTo v places).signedChars (shownNegative v places) :=
    Decimal.withoutZeroSign_signedChars _ Decimal.stripped_coefficient_mod_ten
  rw [fixedText, if_pos hv, hstripped, hsign]

/-- The double that is shown is shown as the value was. -/
theorem fixedText_shown : fixedText (shown v places) places = fixedText v places := by
  have hsign : isNegative (shown v places) = shownNegative v places :=
    isNegative_ofCode (Nat.le_of_lt (shownCode_lt hv places)) _
  have hagain : shownNegative (shown v places) places = shownNegative v places := by
    rw [shownNegative, hsign, roundedTo_shown hv, shownNegative, Bool.and_assoc,
      Bool.and_self]
  rw [fixedText_eq hv, fixedText_eq (isFinite_shown hv places),
    roundedTo_shown hv, hagain]

/-- The text of a finite value is read as the double nearest to it. -/
theorem readNumber_fixedText :
    readNumber (fixedText v places) = .ok (shown v places) := by
  have hnearest : nearest (shownNegative v places) (roundedTo v places).coefficient
      (10 ^ (roundedTo v places).places) = shown v places := by
    rw [nearest, ← shownCode, Nat.min_eq_left (Nat.le_of_lt (shownCode_lt hv places)),
      shown]
  rw [readNumber, fixedText_eq hv, String.toList_ofList,
    Decimal.ofChars?_signedChars]
  show (if (Literal.toFloat _).isFinite then _ else _) = _
  rw [Literal.toFloat_decimal, hnearest, if_pos (isFinite_shown hv places)]

/-- The text of a finite value, entered between parentheses, has the value that
is shown. -/
theorem evaluate_fixedText :
    evaluate ("(" ++ fixedText v places ++ ")") = .ok (shown v places) := by
  have hliteral := (roundedTo v places).isLiteral_signedChars (shownNegative v places)
  rw [← readNumber_fixedText hv, fixedText_eq hv, evaluate_parenthesised hliteral]

end Finite

/-- **The display does not drift**: the text of a finite value is scanned as
one operand, its value between parentheses is finite and differs by at most
one unit of the last place, and it is shown with the same text. -/
theorem fixedText_typed_back {v : Float} (hv : v.isFinite = true) (places : Nat) :
    Token.scan (fixedText v places) = .ok [.number (fixedText v places)] ∧
    ∃ w, evaluate ("(" ++ fixedText v places ++ ")") = .ok w ∧
      w.isFinite = true ∧
      WithinLastPlace places v w ∧ fixedText w places = fixedText v places := by
  have hliteral := (roundedTo v places).isLiteral_signedChars (shownNegative v places)
  constructor
  · rw [fixedText_eq hv, scan_literal hliteral]
  · refine ⟨shown v places, ?_, isFinite_shown hv places, ?_, fixedText_shown hv places⟩
    · rw [← readNumber_fixedText hv, fixedText_eq hv, evaluate_parenthesised hliteral]
    · rw [WithinLastPlace, units_shown hv]
      exact dist_units_shownCode_le v places

/-- Half-way between two decimals the even one is shown, and another double is
nearest to it. -/
theorem fixedText_typed_back_tie :
    ((-0.25 : Float).isFinite = true ∧ fixedText (-0.25) 1 = "-0.2") ∧
    Token.scan "-0.2" = .ok [.number "-0.2"] ∧
    ∃ w, evaluate "(-0.2)" = .ok w ∧ w.isFinite = true ∧
      WithinLastPlace 1 (-0.25) w ∧ fixedText w 1 = "-0.2" := by
  have hfinite : (-0.25 : Float).isFinite = true := by decide +kernel
  have htext : fixedText (-0.25) 1 = "-0.2" := by decide +kernel
  have hinput : "(" ++ "-0.2" ++ ")" = "(-0.2)" := by decide +kernel
  have hback := fixedText_typed_back hfinite 1
  rw [htext, hinput] at hback
  exact ⟨⟨hfinite, htext⟩, hback⟩

end Double

end Calculator
