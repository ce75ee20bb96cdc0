import Calculator.Proofs.Token.Joined
import Calculator.Proofs.Value

/-!
# Writing a tree down

A tree is written down by putting some of its branches in parentheses. As
long as this is done to every branch that holds together too loosely for the
operator above it, what is written is read as the tree. Whether the text of
the tokens is also scanned as these tokens hangs only on the signs: what
stands to the left of a minus has to end with an operand.
-/

namespace Calculator

/-! ## Levels -/

namespace Operator

/-- The level of what the operator makes, and of what it takes on its left. -/
def level : Operator → Level
  | add | sub => .sum
  | mul | div => .product

/-- The level of what the operator takes on its right. -/
def rightLevel : Operator → Level
  | add | sub => .product
  | mul | div => .factor

end Operator

theorem Level.rank_le_factor (level : Level) : level.rank ≤ Level.factor.rank := by
  cases level <;> decide

/-- The level of a tree that stands without parentheses around it. -/
def Expr.level : Expr → Level
  | number _ => .factor
  | binary o _ _ => o.level

namespace Reads

/-- A part holds together as tightly as any level below its own asks. -/
theorem weaken {level level' : Level} {ts : List Token} {e : Expr}
    (h : Reads level ts e) (hle : level'.rank ≤ level.rank) :
    Reads level' ts e := by
  cases level' with
  | sum => exact h.toSum
  | product =>
      cases level with
      | sum => exact absurd hle (by decide)
      | product => exact h
      | factor => exact .ofFactor h
  | factor =>
      cases level with
      | sum => exact absurd hle (by decide)
      | product => exact absurd hle (by decide)
      | factor => exact h

theorem binary {ls rs : List Token} {l r : Expr} (o : Operator)
    (hl : Reads o.level ls l) (hr : Reads o.rightLevel rs r) :
    Reads o.level (ls ++ .op o :: rs) (.binary o l r) := by
  cases o with
  | add => exact .sum .add (.inl rfl) hl hr
  | sub => exact .sum .sub (.inr rfl) hl hr
  | mul => exact .product .mul (.inl rfl) hl hr
  | div => exact .product .div (.inr rfl) hl hr

end Reads

/-! ## Branches in parentheses -/

/-- The tokens, in parentheses or as they are. -/
def grouped (inGroup : Bool) (ts : List Token) : List Token :=
  if inGroup then .lpar :: ts ++ [.rpar] else ts

section Grouped

variable {inGroup : Bool} {ts : List Token}

/-- A branch may stand where its level is tight enough, or in parentheses. -/
theorem Reads.grouped {level level' : Level} {e : Expr} (h : Reads level ts e)
    (hlevel : inGroup = false → level'.rank ≤ level.rank) :
    Reads level' (grouped inGroup ts) e := by
  cases inGroup with
  | true => exact (Reads.group h.toSum).weaken level'.rank_le_factor
  | false => exact h.weaken (hlevel rfl)

theorem canonical_grouped_iff :
    Token.Canonical false (grouped inGroup ts) ↔ Token.Canonical false ts := by
  cases inGroup with
  | true => exact Token.canonical_group_iff
  | false => exact Iff.rfl

/-- What stands in parentheses does not end with an operand. -/
theorem afterNumber_grouped :
    Token.afterNumber false (grouped inGroup ts)
      = (!inGroup && Token.afterNumber false ts) := by
  cases inGroup with
  | true => exact Token.afterNumber_group false ts
  | false => simp [grouped]

end Grouped

/-! ## Layouts -/

/-- Which branches are put in parentheses: those at least that hold together
too loosely where they stand. -/
structure Layout where
  /-- Whether an operator has its left branch in parentheses. -/
  left : Operator → Expr → Bool
  /-- Whether an operator has its right branch in parentheses. -/
  right : Operator → Expr → Bool
  rank_of_left : ∀ {o e}, left o e = false → o.level.rank ≤ e.level.rank
  rank_of_right : ∀ {o e}, right o e = false → o.rightLevel.rank ≤ e.level.rank

namespace Layout

variable (layout : Layout)

/-- The tokens of a tree. -/
def tokens : Expr → List Token
  | .number text => [.number text]
  | .binary o l r =>
    grouped (layout.left o l) (tokens l) ++
      .op o :: grouped (layout.right o r) (tokens r)

/-- Whatever else is in parentheses, the tokens of a tree are read as the
tree. -/
theorem reads_tokens (e : Expr) : Reads e.level (layout.tokens e) e := by
  induction e with
  | number text => exact .number text
  | binary o l r ihl ihr =>
      exact .binary o (ihl.grouped layout.rank_of_left)
        (ihr.grouped layout.rank_of_right)

/-- The tokens of a tree end with an operand if those of its right branch do
and are not in parentheses. -/
theorem afterNumber_tokens_binary (o : Operator) (l r : Expr) :
    Token.afterNumber false (layout.tokens (.binary o l r))
      = (!layout.right o r && Token.afterNumber false (layout.tokens r)) := by
  rw [tokens, Token.afterNumber_binary, afterNumber_grouped]

/-- The tokens of a tree can be scanned if its operands can and every minus
stands behind an operand. -/
theorem canonical_tokens {e : Expr}
    (hoperands : ∀ text, .number text ∈ e.parts → Token.IsOperand text.toList)
    (hminus : ∀ l r, .binary .sub l r ∈ e.parts →
      layout.left .sub l = false ∧
        Token.afterNumber false (layout.tokens l) = true) :
    Token.Canonical false (layout.tokens e) := by
  induction e with
  | number text => exact ⟨rfl, hoperands text (by simp), trivial⟩
  | binary o l r ihl ihr =>
      rw [tokens, Token.canonical_binary_iff, canonical_grouped_iff,
        canonical_grouped_iff]
      refine ⟨?_, ?_, ?_⟩
      · exact ihl (fun text h => hoperands text (by simp [h]))
          (fun a b h => hminus a b (by simp [h]))
      · rintro rfl
        obtain ⟨hleft, hend⟩ := hminus l r (by simp)
        rw [afterNumber_grouped, hleft, hend]
        rfl
      · exact ihr (fun text h => hoperands text (by simp [h]))
          (fun a b h => hminus a b (by simp [h]))

end Layout

/-! ## Reading back -/

/-- Tokens that can be scanned and form more than a lone operand are read back
from their text. -/
theorem readExpression_joined {ts : List Token}
    (hcanonical : Token.Canonical false ts) (hexpr : IsExpression ts)
    (hlength : ts.length ≠ 1) : readExpression (Token.joined ts) = .ok ts :=
  readExpression_eq_ok_iff.mpr
    ⟨Token.scan_joined_eq_ok_iff.mpr hcanonical,
      checkExpression_eq_ok_iff.mpr ⟨hexpr, hlength⟩⟩

end Calculator
