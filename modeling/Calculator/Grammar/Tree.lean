import Calculator.Expr
import Calculator.Grammar

/-!
# The tree of an expression

Which tree a list of tokens stands for, by three levels of the grammar: a
sum of products of factors, every operator grouping to the left. Parentheses
lift a sum to a factor and leave no trace in the tree.
-/

namespace Calculator

/-- How tightly a part of an expression holds together. -/
inductive Level where
  | sum
  | product
  | factor
deriving DecidableEq, Repr

/-- `Reads l ts e`: the tokens `ts` form a part of level `l` with tree `e`. -/
inductive Reads : Level → List Token → Expr → Prop where
  | number (text : String) : Reads .factor [.number text] (.number text)
  | group {ts : List Token} {e : Expr} :
      Reads .sum ts e → Reads .factor (.lpar :: ts ++ [.rpar]) e
  | ofFactor {ts : List Token} {e : Expr} :
      Reads .factor ts e → Reads .product ts e
  | product {ls rs : List Token} {l r : Expr} (o : Operator)
      (times : o = .mul ∨ o = .div) :
      Reads .product ls l → Reads .factor rs r →
        Reads .product (ls ++ .op o :: rs) (.binary o l r)
  | ofProduct {ts : List Token} {e : Expr} :
      Reads .product ts e → Reads .sum ts e
  | sum {ls rs : List Token} {l r : Expr} (o : Operator)
      (plus : o = .add ∨ o = .sub) :
      Reads .sum ls l → Reads .product rs r →
        Reads .sum (ls ++ .op o :: rs) (.binary o l r)

namespace Reads

/-- What has a tree is an expression. -/
theorem isExpression {level : Level} {ts : List Token} {e : Expr}
    (h : Reads level ts e) : IsExpression ts := by
  induction h with
  | number text => exact .number text
  | group _ ih => exact .group ih
  | ofFactor _ ih => exact ih
  | product o _ _ _ ihl ihr => exact .binary o ihl ihr
  | ofProduct _ ih => exact ih
  | sum o _ _ _ ihl ihr => exact .binary o ihl ihr

/-- A part of any level is a sum. -/
theorem toSum {level : Level} {ts : List Token} {e : Expr}
    (h : Reads level ts e) : Reads .sum ts e := by
  cases level with
  | sum => exact h
  | product => exact .ofProduct h
  | factor => exact .ofProduct (.ofFactor h)

end Reads

end Calculator
