import Calculator.Double
import Calculator.Error

/-!
# Number literals

The texts that are read as numbers: an optional sign, then a word for
infinity or for no number, in any case of letters, or decimal digits with at
most one point among or beside them and an optional exponent. A literal is
first taken apart into an exact number and then turned into the double
nearest to it.
-/

namespace Calculator

-- Powers of natural numbers are those of the core library.
attribute [local instance (2000)] instPowNat

/-- What the text of a literal stands for. -/
inductive Literal where
  /-- The number `digits * 10 ^ exponent`, or its opposite. -/
  | number (negative : Bool) (digits : Nat) (exponent : Int)
  | infinity (negative : Bool)
  | nan
deriving DecidableEq, Repr

namespace Literal

/-! ## Taking a text apart -/

/-- A leading sign, which is minus or not, and the characters after it. -/
def splitSign : List Char → Bool × List Char
  | '-' :: cs => (true, cs)
  | '+' :: cs => (false, cs)
  | cs => (false, cs)

/-- The digits after a leading point, and the characters after them. -/
def splitFraction : List Char → List Char × List Char
  | '.' :: cs => (cs.takeWhile Char.isDigit, cs.dropWhile Char.isDigit)
  | cs => ([], cs)

/-- The exponent written at the end of a literal: nothing at all, or the
letter `e`, an optional sign, and digits. -/
def exponent? : List Char → Option Int
  | [] => some 0
  | c :: cs =>
    let (negative, digits) := splitSign cs
    if (c == 'e' || c == 'E') && !digits.isEmpty && digits.all Char.isDigit then
      let magnitude : Int := Nat.ofDigitChars 10 digits 0
      some (if negative then -magnitude else magnitude)
    else
      none

/-- The unsigned number that some characters spell, as digits and exponent. -/
def unsigned? (cs : List Char) : Option (Nat × Int) :=
  let whole := cs.takeWhile Char.isDigit
  let (fraction, rest) := splitFraction (cs.dropWhile Char.isDigit)
  if whole.isEmpty && fraction.isEmpty then none
  else
    (exponent? rest).map fun e =>
      (Nat.ofDigitChars 10 (whole ++ fraction) 0, e - fraction.length)

/-- The literal that some characters spell, if they spell one. -/
def ofChars? (cs : List Char) : Option Literal :=
  let (negative, body) := splitSign cs
  match unsigned? body with
  | some (digits, exponent) => some (.number negative digits exponent)
  | none =>
    let word := body.map Char.toLower
    if word = ['i', 'n', 'f'] ∨ word = ['i', 'n', 'f', 'i', 'n', 'i', 't', 'y'] then
      some (.infinity negative)
    else if word = ['n', 'a', 'n'] then some .nan
    else none

/-! ## The nearest double -/

/-- Whether `digits * 10 ^ exponent`, which is not zero, is too large for a
finite double by its exponent alone. -/
def isHuge (exponent : Int) : Bool :=
  400 < exponent

/-- Whether `digits / 10 ^ places` is below half the least positive double:
`digits` is below `2 ^ (log2 digits + 1)`, and `10 ^ places` is above
`2 ^ (3 * places)`. -/
def isTiny (digits places : Nat) : Bool :=
  digits.log2 + 1076 ≤ 3 * places

/-- The double nearest to a literal. The two bounds keep the powers of ten
small. -/
def toFloat : Literal → Float
  | number negative digits (.ofNat exponent) =>
    if digits = 0 then Double.ofCode negative 0
    else if isHuge exponent then Double.ofCode negative Double.infinityCode
    else Double.nearest negative (digits * 10 ^ exponent) 1
  | number negative digits (.negSucc n) =>
    if isTiny digits (n + 1) then Double.ofCode negative 0
    else Double.nearest negative digits (10 ^ (n + 1))
  | infinity negative => Double.ofCode negative Double.infinityCode
  | nan => Double.ofCode false Double.nanCode

end Literal

/-- The finite double that the text of an operand stands for. -/
def readNumber (text : String) : Except Error Float :=
  match Literal.ofChars? text.toList with
  | none =>
    .error (.unreadableNumber text (if text = "" then .empty else .malformed))
  | some literal =>
    if literal.toFloat.isFinite then .ok literal.toFloat
    else .error (.nonFiniteNumber text)

end Calculator
