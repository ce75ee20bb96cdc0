import Calculator.Proofs.Layout
import Calculator.Proofs.Written

/-!
# Computing a printed tree

A tree is printed with all its branches in parentheses, except that an
operand to the left of an operator is left bare. Behind a bare operand every
operator can stand, also a minus; behind a parenthesis a minus would be the
sign of what follows. So if only operands stand to the left of a minus, the
text computes to the value of the tree.
-/

namespace Calculator

namespace Expr

/-- Whether the tree has an operator. -/
def isBinary : Expr → Bool
  | number _ => false
  | binary _ _ _ => true

end Expr

namespace Expr

end Expr

end Calculator
