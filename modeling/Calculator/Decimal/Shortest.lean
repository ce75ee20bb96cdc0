import Calculator.Decimal.Fixed

/-!
# Values in the fewest digits

The shortest text that is read back as the same value. The numbers that are
rounded to a given double form an interval around it, with its ends if the
code is even. Grids of decimals are tried from the coarsest to the finest,
and on each of them the two neighbours of the value; the first grid with a
neighbour in the interval gives the digits. Of two such neighbours the
nearer is taken, and the upper one if both are equally near. The digits are
written without an exponent.
-/

namespace Calculator.Double

-- Powers of natural numbers are those of the core library.
attribute [local instance (2000)] instPowNat

/-- A grid of decimals: the multiples of `10 ^ tens / 10 ^ places`. -/
structure Grid where
  tens : Nat
  places : Nat

/-- The grids from `10 ^ 309`, above all doubles, down to the one that holds
every double. -/
def grids : List Grid :=
  (List.range 310).reverse.map (⟨·, 0⟩) ++ (List.range unitExponent).map (⟨0, · + 1⟩)

/-- Whether the `m`-th point of a grid is rounded to the code `c`. -/
def Grid.readsBack (g : Grid) (c m : Nat) : Bool :=
  let lower := (unitsOfCode (c - 1) + unitsOfCode c) * 10 ^ g.places
  let upper := (unitsOfCode c + unitsOfCode (c + 1)) * 10 ^ g.places
  let point := 2 * m * unitsPerOne * 10 ^ g.tens
  if c % 2 = 0 then lower ≤ point && point ≤ upper
  else lower < point && point < upper

/-- The point of a grid that stands for the code `c`, if one does. -/
def Grid.point? (g : Grid) (c : Nat) : Option Nat :=
  let num := unitsOfCode c * 10 ^ g.places
  let den := unitsPerOne * 10 ^ g.tens
  let below := num / den
  match g.readsBack c below, g.readsBack c (below + 1) with
  | true, true => some (if 2 * (num % den) < den then below else below + 1)
  | true, false => some below
  | false, true => some (below + 1)
  | false, false => none

/-- The decimal with the fewest digits that is rounded to the code `c`. On
the finest grid every code is met exactly. -/
def shortest (c : Nat) : Decimal :=
  let found := grids.findSome? fun g =>
    (g.point? c).map fun m => ⟨m * 10 ^ g.tens, g.places⟩
  found.getD ⟨unitsOfCode c * 5 ^ unitExponent, unitExponent⟩

/-- The text of a value in the fewest digits that are read back as it. -/
def shortestText (v : Float) : String :=
  if v.isFinite then
    let d := if code v = 0 then ⟨0, 0⟩ else shortest (code v)
    String.ofList (d.signedChars (isNegative v))
  else
    specialText v

end Calculator.Double
