import Calculator.Token

/-!
# The grammar of expressions

Which lists of tokens are expressions, said by derivations and not by a
procedure: operands, groups in parentheses, and two expressions joined by an
operator. An operand alone is an expression of the grammar, although the
calculator asks for three tokens at least.
-/

namespace Calculator

/-- The expressions: an operand, a group, or two of them joined. -/
inductive IsExpression : List Token → Prop where
  | number (text : String) : IsExpression [.number text]
  | group {ts : List Token} :
      IsExpression ts → IsExpression (.lpar :: ts ++ [.rpar])
  | binary {ls rs : List Token} (o : Operator) :
      IsExpression ls → IsExpression rs → IsExpression (ls ++ .op o :: rs)

namespace IsExpression

theorem ne_nil {ts : List Token} (h : IsExpression ts) : ts ≠ [] := by
  cases h <;> simp

/-- A derivation longer than an operand has three tokens at least. -/
theorem length_eq_one_or_three_le {ts : List Token} (h : IsExpression ts) :
    ts.length = 1 ∨ 3 ≤ ts.length := by
  cases h with
  | number text => exact .inl rfl
  | group h =>
      have := List.length_pos_iff.mpr h.ne_nil
      right
      simp
      omega
  | binary o hl hr =>
      have := List.length_pos_iff.mpr hl.ne_nil
      have := List.length_pos_iff.mpr hr.ne_nil
      right
      simp
      omega

end IsExpression

end Calculator
