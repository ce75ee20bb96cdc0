import Calculator.Decimal
import Calculator.Double
import Calculator.Text.Line

/-!
# Values with a fixed number of places

The text of a value at `places` decimals: the exact value is rounded to a
multiple of `10 ^ (-places)`, a tie to the even multiple, and written with all
its decimals. From that text the zeros at its end are taken off, then a point
that is left at the end, and the sign of a zero. A text without a point keeps
its zeros.
-/

namespace Calculator

-- Powers of natural numbers are those of the core library.
attribute [local instance (2000)] instPowNat

/-! ## The text of a decimal, shortened -/

/-- A text with a point, without the zeros and then the point at its end. -/
def withoutEndZeros (cs : List Char) : List Char :=
  if cs.contains '.' then Text.trimEnd '.' (Text.trimEnd '0' cs) else cs

theorem withoutEndZeros_eq_self {cs : List Char} (h : '.' ∉ cs) :
    withoutEndZeros cs = cs := by
  rw [withoutEndZeros, if_neg (by simpa using h)]

theorem withoutEndZeros_append_zero {cs : List Char} (h : '.' ∈ cs) :
    withoutEndZeros (cs ++ ['0']) = withoutEndZeros cs := by
  rw [withoutEndZeros, if_pos (by simp [h]), Text.trimEnd_append_self, withoutEndZeros,
    if_pos (by simpa using h)]

theorem withoutEndZeros_append_point {cs : List Char} (h : cs.getLast? ≠ some '.') :
    withoutEndZeros (cs ++ ['.']) = cs := by
  rw [withoutEndZeros, if_pos (by simp), Text.trimEnd_append_of_ne (by decide),
    Text.trimEnd_append_self, Text.trimEnd_eq_self h]

/-- Behind another digit nothing is taken off. -/
theorem withoutEndZeros_append_of_ne {d : Char} (hzero : d ≠ '0') (hpoint : d ≠ '.')
    (cs : List Char) : withoutEndZeros (cs ++ [d]) = cs ++ [d] := by
  rw [withoutEndZeros, Text.trimEnd_append_of_ne hzero, Text.trimEnd_append_of_ne hpoint,
    ite_self]

/-- A text that says minus zero, without the minus sign. -/
def withoutZeroSign (cs : List Char) : List Char :=
  if cs = ['-', '0'] then cs.tail else cs

namespace Double

/-- The text of a value that is not finite. -/
def specialText (v : Float) : String :=
  if v.isNaN then "NaN" else if isNegative v then "-inf" else "inf"

/-- The magnitude of a finite value, rounded to a number of places. -/
def atPlaces (v : Float) (places : Nat) : Decimal :=
  ⟨roundHalfEven (units v * 10 ^ places) unitsPerOne, places⟩

/-- A finite value with all its places, and with the sign of a negative zero. -/
def plainChars (v : Float) (places : Nat) : List Char :=
  (atPlaces v places).signedChars (isNegative v)

/-- The text of a value with at most `places` decimals. -/
def fixedText (v : Float) (places : Nat) : String :=
  if v.isFinite then
    String.ofList (withoutZeroSign (withoutEndZeros (plainChars v places)))
  else
    specialText v

end Double

end Calculator
