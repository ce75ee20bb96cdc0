import Calculator.Grammar.Tree

/-!
# Every expression has one tree

The grammar of expressions joins two of them in any way, the grammar of trees
only a sum with a product and a product with a factor. When a joined
expression is put behind an operator, its own operators are taken over one by
one from the left, which is how it comes to group to the left.
-/

namespace Calculator

/-! ## There is a tree -/

theorem Operator.times_or_plus (o : Operator) :
    (o = .mul ∨ o = .div) ∨ (o = .add ∨ o = .sub) := by
  cases o <;> simp

namespace Reads

/-- A product times a product is a product. -/
theorem exists_product {ls rs : List Token} {l r : Expr} {level : Level}
    (hl : Reads .product ls l) {o : Operator} (times : o = .mul ∨ o = .div)
    (hr : Reads level rs r) (hlevel : level ≠ .sum) :
    ∃ e, Reads .product (ls ++ .op o :: rs) e := by
  induction hr with
  | number text => exact ⟨_, .product o times hl (.number text)⟩
  | group h _ => exact ⟨_, .product o times hl (.group h)⟩
  | ofFactor h _ => exact ⟨_, .product o times hl h⟩
  | product o' times' _ hr ihl _ =>
      obtain ⟨e, he⟩ := ihl (by simp)
      exact ⟨_, by simpa using Reads.product o' times' he hr⟩
  | ofProduct _ _ => exact absurd rfl hlevel
  | sum _ _ _ _ _ _ => exact absurd rfl hlevel

/-- A sum and a product, joined by any operator, are a sum: a product sign
takes the last product of the sum. -/
theorem exists_sum_of_product {ls rs : List Token} {l r : Expr}
    (hl : Reads .sum ls l) (o : Operator) (hr : Reads .product rs r) :
    ∃ e, Reads .sum (ls ++ .op o :: rs) e := by
  rcases o.times_or_plus with times | plus
  · cases hl with
    | ofProduct hl =>
        obtain ⟨e, he⟩ := hl.exists_product times hr (by simp)
        exact ⟨e, .ofProduct he⟩
    | sum o' plus hl hlast =>
        obtain ⟨e, he⟩ := hlast.exists_product times hr (by simp)
        exact ⟨_, by simpa using Reads.sum o' plus hl he⟩
  · exact ⟨_, .sum o plus hl hr⟩

/-- Two parts of any level, joined by any operator, are a sum. -/
theorem exists_sum {ls rs : List Token} {l r : Expr} {level : Level}
    (hl : Reads .sum ls l) (o : Operator) (hr : Reads level rs r) :
    ∃ e, Reads .sum (ls ++ .op o :: rs) e := by
  induction hr with
  | number text => exact hl.exists_sum_of_product o (.ofFactor (.number text))
  | group h _ => exact hl.exists_sum_of_product o (.ofFactor (.group h))
  | ofFactor h _ => exact hl.exists_sum_of_product o (.ofFactor h)
  | product o' times hl' hr _ _ =>
      exact hl.exists_sum_of_product o (.product o' times hl' hr)
  | ofProduct _ ih => exact ih
  | sum o' plus _ hr ihl _ =>
      obtain ⟨e, he⟩ := ihl
      exact ⟨_, by simpa using Reads.sum o' plus he hr⟩

end Reads

theorem IsExpression.exists_reads {ts : List Token} (h : IsExpression ts) :
    ∃ e, Reads .sum ts e := by
  induction h with
  | number text => exact ⟨_, (Reads.number text).toSum⟩
  | group _ ih =>
      obtain ⟨e, he⟩ := ih
      exact ⟨e, (Reads.group he).toSum⟩
  | binary o _ _ ihl ihr =>
      obtain ⟨l, hl⟩ := ihl
      obtain ⟨r, hr⟩ := ihr
      exact hl.exists_sum o hr

end Calculator
