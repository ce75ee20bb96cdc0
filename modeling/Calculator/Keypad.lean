import Calculator.Token

/-!
# The keypad

The buttons of the calculator, in reading order. Most of them add one
character to the entry; the signs `+ - *` are found twice, in the row of
symbols and beside the digits.
-/

namespace Calculator

/-- A character that a button adds to the entry. -/
inductive Key where
  | digit (value : Fin 10)
  | point
  | symbol (symbol : Symbol)
deriving DecidableEq, Repr

/-- The character that a key adds. -/
def Key.char : Key → Char
  | digit value => Nat.digitChar value
  | point => '.'
  | symbol s => s.char

/-- What a button does. -/
inductive Button where
  | insert (key : Key)
  /-- Removes the last character of the entry. -/
  | delete
  | clearEntry
  | clearResults
  | clearAll
  | equals
deriving DecidableEq, Repr

/-- What is written on a button. -/
def Button.label : Button → String
  | insert key => key.char.toString
  | delete => "DEL"
  | clearEntry => "C"
  | clearResults => "CLR"
  | clearAll => "AC"
  | equals => "="

namespace Keypad

/-- The button of a digit. -/
def digit (value : Fin 10) : Button :=
  .insert (.digit value)

/-- The button of an operator. -/
def op (o : Operator) : Button :=
  .insert (.symbol (.op o))

/-- The buttons from left to right and from top to bottom. -/
def rows : List (List Button) := [
  [.clearEntry, .clearResults, .clearAll],
  [.insert (.symbol .lpar), .insert (.symbol .rpar),
    op .add, op .sub, op .mul, op .div, .equals],
  [digit 7, digit 8, digit 9, .delete],
  [digit 4, digit 5, digit 6, op .mul],
  [digit 1, digit 2, digit 3, op .sub],
  [digit 0, .insert .point, op .add]]

/-- The button that bears a label, the `nth` one from zero. -/
def find? (label : String) (nth : Nat) : Option Button :=
  (rows.flatten.filter (·.label == label))[nth]?

/-- There is a button for everything that buttons do. -/
theorem find?_label (button : Button) : find? button.label 0 = some button := by
  cases button with
  | insert key =>
      cases key with
      | digit value =>
          revert value
          decide +kernel
      | point => decide +kernel
      | symbol s =>
          cases s with
          | op o => cases o <;> decide +kernel
          | _ => decide +kernel
  | _ => decide +kernel

theorem label_of_find? {label : String} {nth : Nat} {button : Button}
    (h : find? label nth = some button) : button.label = label := by
  have hmem := List.mem_filter.mp (List.mem_of_getElem? h)
  exact beq_iff_eq.mp hmem.2

end Keypad

end Calculator
