import Calculator.Token
import Calculator.Token.Scan
import Calculator.Text.Line
import Calculator.Text.Quoted
import Calculator.Error
import Calculator.Grammar
import Calculator.Grammar.Check
import Calculator.Grammar.Tree
import Calculator.Decimal.Literal
import Calculator.Decimal.Fixed
import Calculator.Decimal.Shortest
import Calculator.Rpn.Conversion
import Calculator.Rpn.Evaluation
import Calculator.Expr
import Calculator.Trace
import Calculator.Session
import Calculator.Keypad
import Calculator.View
import Calculator.Proofs.Outcome
import Calculator.Proofs.Grammar.Accepted
import Calculator.Proofs.Grammar.Balanced
import Calculator.Proofs.Grammar.FirstFault
import Calculator.Proofs.Double.Zero
import Calculator.Proofs.Rpn.Forest
import Calculator.Proofs.Grammar.Reading
import Calculator.Proofs.Rpn.Order
import Calculator.Proofs.Value
import Calculator.Proofs.Token.Line
import Calculator.Proofs.Token.Canonical
import Calculator.Proofs.Token.Foreign
import Calculator.Proofs.Token.Joined
import Calculator.Proofs.Decimal.Literal
import Calculator.Proofs.Written
import Calculator.Proofs.Layout
import Calculator.Proofs.Printed
import Calculator.Proofs.Entered
import Calculator.Proofs.Token.Spaced
import Calculator.Proofs.Trace
import Calculator.Proofs.Session
import Calculator.Proofs.Streams
import Calculator.Proofs.History
import Calculator.Proofs.FirstLine
import Calculator.Proofs.Keypad
import Calculator.Proofs.Rounding
import Calculator.Proofs.Double.Bits
import Calculator.Proofs.Double.Nearest
import Calculator.Proofs.Decimal.ReadBack
import Calculator.Proofs.Decimal.Stripped
import Calculator.Proofs.TypedBack
import Calculator.Proofs.Rpn.Levels
import Calculator.Proofs.Rpn.Conserved
import Calculator.Proofs.Decimal.Text
import Calculator.Proofs.Display
import Calculator.Proofs.Rpn.Group
import Calculator.Proofs.Rpn.Ranks
import Calculator.Proofs.FullWidth
import Calculator.Proofs.Double.Finite
import Calculator.Proofs.Operand
import Calculator.Proofs.Double.Overflow
import Calculator.Proofs.Double.Arithmetic
import Calculator.Proofs.NonFinite
