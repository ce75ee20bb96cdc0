import Calculator.Decimal.Literal

/-!
# Computing in reverse Polish order

Operands are read and put on a stack of values; a symbol takes the two
latest values, the right operand first, and puts its result back. The first
token that cannot be obeyed ends the computation. One value has to be left.
-/

namespace Calculator

/-! ## Operators on doubles -/

/-- The result of an operator; a zero of either sign divides nothing. -/
def Operator.apply (o : Operator) (a b : Float) : Except Error Float :=
  match o with
  | .add => .ok (a + b)
  | .sub => .ok (a - b)
  | .mul => .ok (a * b)
  | .div => if b == 0 then .error .divisionByZero else .ok (a / b)

/-- The result of a symbol; a parenthesis is no operation. -/
def Symbol.apply (s : Symbol) (a b : Float) : Except Error Float :=
  match s with
  | .op o => o.apply a b
  | .lpar | .rpar => .error (.invalidOperation s)

/-! ## The stack -/

namespace Rpn

/-- Obeys one token; the top of the stack comes first. -/
def push (stack : List Float) : Token → Except Error (List Float)
  | .number text => (· :: stack) <$> readNumber text
  | .symbol s =>
    match stack with
    | b :: a :: rest => (· :: rest) <$> s.apply a b
    | _ => .error (.invalidExpression (.missingOperand s))

/-- The stack after a list of tokens. -/
def pushAll (stack : List Float) (ts : List Token) :
    Except Error (List Float) :=
  ts.foldlM push stack

/-- The one value left at the end. -/
def single : List Float → Except Error Float
  | [v] => .ok v
  | stack => .error (.invalidExpression (.valuesLeft stack.length))

/-- The value of tokens in reverse Polish order. -/
def value (ts : List Token) : Except Error Float :=
  pushAll [] ts >>= single

@[simp] theorem pushAll_nil (stack : List Float) :
    pushAll stack [] = .ok stack := rfl

theorem pushAll_cons (stack : List Float) (t : Token) (ts : List Token) :
    pushAll stack (t :: ts) = push stack t >>= (pushAll · ts) := rfl

theorem pushAll_append (stack : List Float) (ts us : List Token) :
    pushAll stack (ts ++ us) = pushAll stack ts >>= (pushAll · us) :=
  List.foldlM_append

end Rpn

end Calculator
