import Calculator.Rounding

/-!
# Doubles as exact numbers

Without its sign a double is a code: the natural number that its lower 63
bits spell. Codes are in the order of the magnitudes they stand for, from
zero through the finite ones up to infinity, one step apart. All finite
magnitudes are multiples of the least positive one, the unit, so a magnitude
is known exactly by the number of units it holds.

A quotient is turned into the double next to it by rounding the number of
units to the step of its binade; a carry at the upper end of a binade then
runs into the next one by itself, and what lies above the largest finite
double becomes infinity.
-/

namespace Calculator.Double

-- Powers of natural numbers are those of the core library.
attribute [local instance (2000)] instPowNat

/-! ## The format -/

/-- How many bits of a double spell its place within a binade. -/
abbrev fractionBits : Nat := 52

/-- The number of the bit that holds the sign. -/
abbrev signBit : Nat := 63

/-- The unit is one divided by two this many times. -/
abbrev unitExponent : Nat := 1074

/-- How many units make one. -/
def unitsPerOne : Nat := 2 ^ unitExponent

/-- The code of infinity, one step above the largest finite magnitude. -/
def infinityCode : Nat := 2047 * 2 ^ fractionBits

/-- The code of the double that is no number. -/
def nanCode : Nat := infinityCode + 2 ^ (fractionBits - 1)

/-! ## Codes and units -/

/-- How many units a code stands for. The step from one code to the next is
one unit in the first two binades, and doubles with every further one. -/
def unitsOfCode (c : Nat) : Nat :=
  if c < 2 ^ fractionBits then c
  else (2 ^ fractionBits + c % 2 ^ fractionBits)
    * 2 ^ (c / 2 ^ fractionBits - 1)

/-- The code of a double, its sign left aside. -/
def code (v : Float) : Nat :=
  v.toBits.toNat % 2 ^ signBit

/-- Whether the sign bit of a double is set. -/
def isNegative (v : Float) : Bool :=
  2 ^ signBit ≤ v.toBits.toNat

/-- The magnitude of a finite double in units. -/
def units (v : Float) : Nat :=
  unitsOfCode (code v)

/-- The double with a given sign and code. -/
def ofCode (negative : Bool) (c : Nat) : Float :=
  Float.ofBits (UInt64.ofNat (if negative then 2 ^ signBit + c else c))

theorem unitsOfCode_of_lt {c : Nat} (h : c < 2 ^ fractionBits) :
    unitsOfCode c = c := by
  rw [unitsOfCode, if_pos h]

/-- The units of the `m`-th code in the binade `k`, counted from the one
whose step is one unit. -/
theorem unitsOfCode_binade (k : Nat) {m : Nat} (h : m < 2 ^ fractionBits) :
    unitsOfCode ((k + 1) * 2 ^ fractionBits + m)
      = (2 ^ fractionBits + m) * 2 ^ k := by
  have hlow : ¬ (k + 1) * 2 ^ fractionBits + m < 2 ^ fractionBits := by
    rw [Nat.add_mul]
    omega
  have hmod : ((k + 1) * 2 ^ fractionBits + m) % 2 ^ fractionBits = m := by
    rw [Nat.mul_add_mod', Nat.mod_eq_of_lt h]
  have hdiv : ((k + 1) * 2 ^ fractionBits + m) / 2 ^ fractionBits = k + 1 := by
    rw [Nat.mul_comm, Nat.mul_add_div (Nat.two_pow_pos _),
      Nat.div_eq_of_lt h, Nat.add_zero]
  rw [unitsOfCode, if_neg hlow, hmod, hdiv, Nat.add_sub_cancel]

/-! ## The double next to a quotient -/

/-- The code whose magnitude is nearest to `num / den`; of two that are
equally near, the even code. It may lie above the code of infinity. -/
def nearestCode (num den : Nat) : Nat :=
  let scaled := num * unitsPerOne
  let binade := (scaled / den).log2 - fractionBits
  binade * 2 ^ fractionBits + roundHalfEven scaled (den * 2 ^ binade)

/-- The double nearest to `num / den`, or infinity if that is too large. -/
def nearest (negative : Bool) (num den : Nat) : Float :=
  ofCode negative (min (nearestCode num den) infinityCode)

end Calculator.Double
