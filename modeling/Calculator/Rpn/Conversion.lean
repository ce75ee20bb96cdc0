import Calculator.Token

/-!
# Reverse Polish order

In reverse Polish order an operator follows its two operands, and
parentheses are not needed. The conversion reads the tokens once; an operand
goes straight out, while an operator waits on a stack until an operator that
binds no tighter, the end of its group or the end of all sends it out. All
operators group to the left.
-/

namespace Calculator.Rpn

/-! ## One token -/

/-- Whether a waiting symbol goes out when an operator arrives. An opening
parenthesis never does, since it ranks below every operator. -/
def yields (o : Operator) (waiting : Symbol) : Bool :=
  o.precedence ≤ waiting.precedence

/-- What waits after a token; the latest symbol comes first. -/
def advance (waiting : List Symbol) : Token → List Symbol
  | .number _ => waiting
  | .lpar => .lpar :: waiting
  | .rpar => (waiting.dropWhile (· != .lpar)).tail
  | .op o => .op o :: waiting.dropWhile (yields o)

/-- What a token sends out. -/
def released (waiting : List Symbol) : Token → List Token
  | .number text => [.number text]
  | .lpar => []
  | .rpar => (waiting.takeWhile (· != .lpar)).map .symbol
  | .op o => (waiting.takeWhile (yields o)).map .symbol

/-! ## A list of tokens -/

/-- What waits after a list of tokens. -/
def advanceAll (waiting : List Symbol) (ts : List Token) : List Symbol :=
  ts.foldl advance waiting

/-- What a list of tokens sends out, the end excepted. -/
def releasedAll (waiting : List Symbol) : List Token → List Token
  | [] => []
  | t :: ts => released waiting t ++ releasedAll (advance waiting t) ts

/-- The tokens of an expression in reverse Polish order: all that is sent
out on the way, then all that still waits. Whether the tokens form an
expression is not looked at; their parentheses have to be balanced. -/
def ofInfix (ts : List Token) : List Token :=
  releasedAll [] ts ++ (advanceAll [] ts).map .symbol

@[simp] theorem advanceAll_nil (w : List Symbol) : advanceAll w [] = w := rfl

@[simp] theorem advanceAll_cons (w : List Symbol) (t : Token) (ts : List Token) :
    advanceAll w (t :: ts) = advanceAll (advance w t) ts := rfl

theorem advanceAll_append (w : List Symbol) (ts us : List Token) :
    advanceAll w (ts ++ us) = advanceAll (advanceAll w ts) us :=
  List.foldl_append

theorem releasedAll_append (w : List Symbol) (ts us : List Token) :
    releasedAll w (ts ++ us)
      = releasedAll w ts ++ releasedAll (advanceAll w ts) us := by
  induction ts generalizing w with
  | nil => rfl
  | cons t ts ih => simp [releasedAll, ih]

end Calculator.Rpn
