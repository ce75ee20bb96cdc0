import Calculator.Rpn.Evaluation

/-!
# Expression trees

The structure of an expression with the parentheses gone: operands at the
leaves and an operator at every fork. The value of a tree is computed from
the left, and the first error met is its result. Listing the left branch,
the right branch and then the operator gives reverse Polish order.
-/

namespace Calculator

/-- An expression as a tree. -/
inductive Expr where
  | number (text : String)
  | binary (operator : Operator) (left right : Expr)
deriving DecidableEq, Repr

namespace Expr

/-- The value of a tree: left branch, right branch, then the operator. -/
def value : Expr → Except Error Float
  | number text => readNumber text
  | binary o l r => do
    let a ← l.value
    let b ← r.value
    o.apply a b

/-- The tokens of a tree, every operator after its two branches. -/
def postorder : Expr → List Token
  | number text => [.number text]
  | binary o l r => l.postorder ++ r.postorder ++ [.op o]

/-- Pushing the tokens of a tree puts its value on the stack. -/
theorem pushAll_postorder (e : Expr) (stack : List Float) :
    Rpn.pushAll stack e.postorder = (· :: stack) <$> e.value := by
  induction e generalizing stack with
  | number text =>
      rw [postorder, value, Rpn.pushAll_cons, Rpn.push]
      cases readNumber text <;> rfl
  | binary o l r ihl ihr =>
      rw [postorder, value, Rpn.pushAll_append, Rpn.pushAll_append, ihl]
      cases l.value with
      | error e => rfl
      | ok a =>
          change Rpn.pushAll (a :: stack) r.postorder >>= _ = _
          rw [ihr]
          cases r.value with
          | error e => rfl
          | ok b =>
              change (· :: stack) <$> o.apply a b >>= (Rpn.pushAll · [])
                = (· :: stack) <$> o.apply a b
              cases o.apply a b <;> rfl

/-- The tokens of a tree compute to its value. -/
theorem value_postorder (e : Expr) : Rpn.value e.postorder = e.value := by
  rw [Rpn.value, pushAll_postorder]
  cases e.value <;> rfl

end Expr

end Calculator
