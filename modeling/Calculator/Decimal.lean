/-!
# Decimals

A decimal is a natural number divided by a power of ten. It is written with
exactly as many digits after the point as it has places, and without a point
when it has none.
-/

namespace Calculator

-- Powers of natural numbers are those of the core library.
attribute [local instance (2000)] instPowNat

/-- The number `coefficient / 10 ^ places`. -/
structure Decimal where
  coefficient : Nat
  places : Nat
deriving DecidableEq, Repr

namespace Decimal

/-- The part before the point. -/
def whole (d : Decimal) : Nat :=
  d.coefficient / 10 ^ d.places

/-- The part after the point, in units of the last place. -/
def fraction (d : Decimal) : Nat :=
  d.coefficient % 10 ^ d.places

/-- The digits after the point, one for each place. -/
def fractionDigits (d : Decimal) : List Char :=
  (Nat.toDigits 10 d.fraction).leftpad d.places '0'

/-- The decimal as it is written. -/
def chars (d : Decimal) : List Char :=
  Nat.toDigits 10 d.whole ++
    if d.places = 0 then [] else '.' :: d.fractionDigits

/-- The same number with a minus sign in front if asked for. -/
def signedChars (negative : Bool) (d : Decimal) : List Char :=
  if negative then '-' :: d.chars else d.chars

end Decimal

end Calculator
