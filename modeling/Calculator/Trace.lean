import Calculator.Token.Scan
import Calculator.Grammar.Check
import Calculator.Rpn.Conversion
import Calculator.Rpn.Evaluation

/-!
# From an input to its value

The first line of an input is read as tokens, the tokens are checked, put in
reverse Polish order, and computed; the first step that fails gives the
error. `evaluate` answers with the value alone, `analyse` keeps a trace of
the way: the tokens as read and in reverse Polish order.
-/

namespace Calculator

/-- What the steps of an evaluation produced. -/
structure Trace where
  tokens : String := ""
  rpn : String := ""
  value : Float := 0
deriving DecidableEq

/-- The tokens of an input, if they form an expression. -/
def readExpression (input : String) : Except Error (List Token) := do
  let ts ← Token.scan input
  (checkExpression ts).mapError .invalidExpression
  return ts

/-- The value of the first line of an input. -/
def evaluate (input : String) : Except Error Float := do
  let ts ← readExpression input
  Rpn.value (Rpn.ofInfix ts)

/-- The value of the first line of an input, with the way that led to it. -/
def analyse (input : String) : Except Error Trace := do
  let ts ← readExpression input
  let value ← Rpn.value (Rpn.ofInfix ts)
  return ⟨Token.spaced ts, Token.spaced (Rpn.ofInfix ts), value⟩

/-- Both evaluations agree. -/
theorem value_analyse (input : String) :
    Trace.value <$> analyse input = evaluate input := by
  unfold analyse evaluate
  cases readExpression input with
  | error e => rfl
  | ok ts =>
      change Trace.value <$> (Rpn.value (Rpn.ofInfix ts) >>= fun v =>
        .ok ⟨Token.spaced ts, Token.spaced (Rpn.ofInfix ts), v⟩)
          = Rpn.value (Rpn.ofInfix ts)
      cases Rpn.value (Rpn.ofInfix ts) <;> rfl

end Calculator
