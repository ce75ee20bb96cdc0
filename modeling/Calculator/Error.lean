import Calculator.Token
import Calculator.Text.Quoted

/-!
# Errors and their messages

Every reason for which an input has no value, by its cause, and the sentence
that tells the user. Positions count from zero: bytes of the text for a
foreign character, tokens of the expression for a misplaced token.
-/

namespace Calculator

/-! ## Causes -/

/-- Why a token cannot stand where it stands. -/
inductive Fault where
  | adjacentOperands
  | groupAfterOperand
  | adjacentOperators (first second : Operator)
  | badStart (token : Token)
  | misplaced (token previous : Token)
  | unmatchedClose
deriving DecidableEq, Repr

/-- Why a list of tokens is not an expression. -/
inductive Malformed where
  /-- Fewer tokens than the shortest expression has. -/
  | tooShort (count : Nat)
  /-- The token at `index` cannot stand there. -/
  | atToken (index : Nat) (fault : Fault)
  /-- The last token calls for an operand. -/
  | unexpectedEnd (last : Symbol)
  /-- The parenthesis at `index` is never closed. -/
  | unclosedGroup (index : Nat)
  /-- A symbol finds fewer than two values to work on. -/
  | missingOperand (symbol : Symbol)
  /-- The computation ends with another number of values than one. -/
  | valuesLeft (count : Nat)
deriving DecidableEq, Repr

/-- Why the text of an operand is not a number. -/
inductive LiteralFault where
  | empty
  | malformed
deriving DecidableEq, Repr

/-- Why an input has no value. -/
inductive Error where
  | unexpectedChar (char : Char) (position : Nat)
  | invalidExpression (reason : Malformed)
  | unreadableNumber (text : String) (fault : LiteralFault)
  | nonFiniteNumber (text : String)
  | divisionByZero
  | invalidOperation (symbol : Symbol)
deriving DecidableEq, Repr

/-! ## Messages -/

/-- The length of the shortest expression, `(a)` or `a+b`. -/
def minTokens : Nat := 3

namespace Fault

/-- What is wrong with the token. -/
def message : Fault → String
  | adjacentOperands => "deux opérandes consécutives"
  | groupAfterOperand => "'(' juste après une opérande"
  | adjacentOperators first second =>
    s!"deux opérateurs consécutifs '{first.char}' '{second.char}'"
  | badStart token => s!"début inattendu sur '{token.text}'"
  | misplaced token previous =>
    s!"'{token.text}' inattendu après '{previous.text}'"
  | unmatchedClose => "')' sans '(' correspondante"

end Fault

namespace Malformed

/-- What is wrong with the tokens. -/
def message : Malformed → String
  | tooShort count => s!"au moins {minTokens} jetons attendus, {count} reçus"
  | atToken index fault => s!"{fault.message} (jeton {index})"
  | unexpectedEnd last => s!"fin inattendue sur '{last.char}'"
  | unclosedGroup index => s!"'(' non fermée (jeton {index})"
  | missingOperand symbol => s!"opérande manquante pour '{symbol.char}'"
  | valuesLeft count => s!"{count} valeurs restantes en fin de RPN"

end Malformed

namespace LiteralFault

/-- What is wrong with the text of an operand. -/
def message : LiteralFault → String
  | empty => "cannot parse float from empty string"
  | malformed => "invalid float literal"

end LiteralFault

namespace Error

/-- The sentence shown to the user. -/
def message : Error → String
  | unexpectedChar char position =>
    s!"caractère inattendu: '{char}' (position {position})"
  | invalidExpression reason => s!"expression invalide: {reason.message}"
  | unreadableNumber text _ => s!"nombre invalide: {Text.quoted text}"
  | nonFiniteNumber text => s!"nombre hors domaine: {Text.quoted text}"
  | divisionByZero => "division par zéro"
  | invalidOperation symbol => s!"opération invalide: '{symbol.char}'"

end Error

end Calculator
