/-!
# Tokens of infix arithmetic

An expression is a list of tokens: operands, kept as the text that was
typed, and the six symbols `+ - * / ( )`. The text of an operand is read
as a number only when the expression is computed, so `1.2.3` is a token.

Two texts are made of tokens: `Token.joined` puts them side by side,
`Token.spaced` sets them apart by one space.
-/

namespace Calculator

/-! ## Operators and symbols -/

/-- A binary operation of arithmetic. -/
inductive Operator where
  | add
  | sub
  | mul
  | div
deriving DecidableEq, Repr

/-- A sign of the expression that is not an operand. -/
inductive Symbol where
  | op (operator : Operator)
  | lpar
  | rpar
deriving DecidableEq, Repr

namespace Operator

/-- The character that stands for the operator. -/
def char : Operator → Char
  | add => '+'
  | sub => '-'
  | mul => '*'
  | div => '/'

/-- How tightly an operator binds: products before sums. -/
def precedence : Operator → Nat
  | add | sub => 1
  | mul | div => 2

theorem precedence_pos (o : Operator) : 0 < o.precedence := by
  cases o <;> decide

end Operator

namespace Symbol

/-- The character that stands for the symbol. -/
def char : Symbol → Char
  | op o => o.char
  | lpar => '('
  | rpar => ')'

/-- Whether the symbol joins two operands. -/
def isBinary : Symbol → Bool
  | op _ => true
  | lpar | rpar => false

/-- Parentheses rank below every operator. -/
def precedence : Symbol → Nat
  | op o => o.precedence
  | lpar | rpar => 0

/-- All the symbols, each once. -/
def all : List Symbol :=
  [op .add, op .sub, op .mul, op .div, lpar, rpar]

/-- The symbol that a character stands for. -/
def ofChar? (c : Char) : Option Symbol :=
  all.find? (·.char == c)

theorem ofChar?_char (s : Symbol) : ofChar? s.char = some s := by
  cases s with
  | op o => cases o <;> decide
  | lpar => decide
  | rpar => decide

theorem char_ofChar? {c : Char} {s : Symbol} (h : ofChar? c = some s) :
    s.char = c := by
  simpa using List.find?_some h

theorem char_injective {a b : Symbol} (h : a.char = b.char) : a = b := by
  have := ofChar?_char a
  rw [h, ofChar?_char b] at this
  exact (Option.some.inj this).symm

/-- Exactly the operators have a precedence above zero. -/
theorem precedence_pos_iff {s : Symbol} :
    0 < s.precedence ↔ s.isBinary = true := by
  cases s with
  | op o => simp [precedence, isBinary, o.precedence_pos]
  | lpar => decide
  | rpar => decide

end Symbol

/-! ## Tokens -/

/-- One element of an expression. -/
inductive Token where
  /-- An operand, with its text as typed, sign and point included. -/
  | number (text : String)
  | symbol (symbol : Symbol)
deriving DecidableEq, Repr

namespace Token

/-- An operator as a token. -/
@[match_pattern]
abbrev op (o : Operator) : Token := symbol (.op o)

/-- An opening parenthesis as a token. -/
@[match_pattern]
abbrev lpar : Token := symbol .lpar

/-- A closing parenthesis as a token. -/
@[match_pattern]
abbrev rpar : Token := symbol .rpar

/-- Whether the token is an operand. -/
def isNumber : Token → Bool
  | number _ => true
  | symbol _ => false

/-- The characters of a token. -/
def chars : Token → List Char
  | number text => text.toList
  | symbol s => [s.char]

/-- The text of a token. -/
def text (t : Token) : String :=
  String.ofList t.chars

/-! ## Texts made of tokens -/

/-- The tokens side by side, nothing between them. -/
def joined (ts : List Token) : String :=
  String.ofList (ts.flatMap chars)

/-- The tokens with one space between neighbours. -/
def spaced (ts : List Token) : String :=
  String.ofList ([' '].intercalate (ts.map chars))

@[simp] theorem toList_joined (ts : List Token) :
    (joined ts).toList = ts.flatMap chars := by
  simp [joined]

@[simp] theorem toList_spaced (ts : List Token) :
    (spaced ts).toList = [' '].intercalate (ts.map chars) := by
  simp [spaced]

end Token

end Calculator
