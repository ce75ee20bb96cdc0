import Calculator.Proofs.Layout

/-!
# Which trees can be entered

A minus is scanned as an operator only directly behind an operand, so a tree
can be entered only if what stands to the left of each minus can be written
with an operand at its end. Only sums, products and operands stand there
without parentheses, and their last part stands without parentheses only if
it holds together tightly enough. Writing as few parentheses as the levels
allow shows that nothing else is in the way.
-/

namespace Calculator

/-! ## Trees that end in an operand -/

namespace Expr

/-- The trees that can be written to the left of a sum with an operand, and
not a parenthesis, at their end. -/
inductive EndsInOperand : Expr → Prop where
  | operand (text : String) : EndsInOperand (.number text)
  | right (o : Operator) (l : Expr) (text : String) :
      EndsInOperand (.binary o l (.number text))
  /-- A product ends a sum without parentheses. -/
  | product {o o' : Operator} (plus : o = .add ∨ o = .sub)
      (times : o' = .mul ∨ o' = .div) (l a : Expr) (text : String) :
      EndsInOperand (.binary o l (.binary o' a (.number text)))

end Expr

/-! ## A minus that was scanned -/

namespace Reads

variable {ts : List Token} {e : Expr}

theorem factor_ends (h : Reads .factor ts e)
    (hend : Token.afterNumber false ts = true) : ∃ text, e = .number text := by
  cases h with
  | number text => exact ⟨text, rfl⟩
  | group _ =>
      rw [Token.afterNumber_group] at hend
      cases hend

theorem product_ends (h : Reads .product ts e)
    (hend : Token.afterNumber false ts = true) :
    (∃ text, e = .number text) ∨
      ∃ o a text, (o = .mul ∨ o = .div) ∧ e = .binary o a (.number text) := by
  cases h with
  | ofFactor h => exact .inl (h.factor_ends hend)
  | product o times _ hr =>
      rw [Token.afterNumber_binary] at hend
      obtain ⟨text, rfl⟩ := hr.factor_ends hend
      exact .inr ⟨o, _, text, times, rfl⟩

/-- Which trees can be read from tokens that end with an operand. -/
theorem sum_ends (h : Reads .sum ts e)
    (hend : Token.afterNumber false ts = true) : e.EndsInOperand := by
  cases h with
  | ofProduct h =>
      rcases h.product_ends hend with ⟨text, rfl⟩ | ⟨o, a, text, _, rfl⟩
      · exact .operand text
      · exact .right o a text
  | sum o plus _ hr =>
      rw [Token.afterNumber_binary] at hend
      rcases hr.product_ends hend with ⟨text, rfl⟩ | ⟨o', a, text, times, rfl⟩
      · exact .right o _ text
      · exact .product plus times _ a text

/-- To the left of a minus that was scanned stands a tree that ends in an
operand. -/
theorem endsInOperand_of_sub {level : Level} (h : Reads level ts e)
    (hcanonical : Token.Canonical false ts) {l r : Expr}
    (hmem : .binary .sub l r ∈ e.parts) : l.EndsInOperand := by
  induction h with
  | number text => cases Expr.mem_parts_number.mp hmem
  | group _ ih => exact ih (Token.canonical_group_iff.mp hcanonical) hmem
  | ofFactor _ ih => exact ih hcanonical hmem
  | product o times _ _ ihl ihr =>
      obtain ⟨hls, _, hrs⟩ := Token.canonical_binary_iff.mp hcanonical
      rcases Expr.mem_parts_binary.mp hmem with hmem | hmem | hmem
      · exact ihl hls hmem
      · exact ihr hrs hmem
      · cases hmem
        simp at times
  | ofProduct _ ih => exact ih hcanonical hmem
  | sum o plus hl _ ihl ihr =>
      obtain ⟨hls, minus, hrs⟩ := Token.canonical_binary_iff.mp hcanonical
      rcases Expr.mem_parts_binary.mp hmem with hmem | hmem | hmem
      · exact ihl hls hmem
      · exact ihr hrs hmem
      · cases hmem
        exact hl.sum_ends (minus rfl)

end Reads

/-! ## Parentheses only where they are needed -/

namespace Layout

/-- Only the branches that need parentheses have them. -/
def sparse : Layout where
  left o e := e.level.rank < o.level.rank
  right o e := e.level.rank < o.rightLevel.rank
  rank_of_left h := Nat.le_of_not_lt (of_decide_eq_false h)
  rank_of_right h := Nat.le_of_not_lt (of_decide_eq_false h)

/-- To the left of a minus there is never need for parentheses. -/
theorem sparse_left_sub (e : Expr) : sparse.left .sub e = false := by
  have hrank : Operator.sub.level.rank ≤ e.level.rank := by
    cases e.level <;> decide
  exact decide_eq_false (Nat.not_lt.mpr hrank)

theorem sparse_right_number (o : Operator) (text : String) :
    sparse.right o (.number text) = false :=
  decide_eq_false (Nat.not_lt.mpr o.rightLevel.rank_le_factor)

theorem sparse_right_product {o o' : Operator} (plus : o = .add ∨ o = .sub)
    (times : o' = .mul ∨ o' = .div) (l r : Expr) :
    sparse.right o (.binary o' l r) = false := by
  rcases plus with rfl | rfl <;> rcases times with rfl | rfl <;> rfl

theorem afterNumber_sparse {e : Expr} (h : e.EndsInOperand) :
    Token.afterNumber false (sparse.tokens e) = true := by
  cases h with
  | operand text => rfl
  | right o l text =>
      rw [afterNumber_tokens_binary, sparse_right_number]
      rfl
  | product plus times l a text =>
      rw [afterNumber_tokens_binary, sparse_right_product plus times,
        afterNumber_tokens_binary, sparse_right_number]
      rfl

end Layout

/-! ## Trees that can be entered -/

/-- **Which trees can be entered**: those in which every minus has on its left
an operand, or a tree whose right branch is an operand, or a sum whose right
branch is a product with an operand as its right branch. -/
theorem entered_iff {e : Expr}
    (hoperands : ∀ text, .number text ∈ e.parts → Token.IsOperand text.toList) :
    (∃ s ts, Token.scan s = .ok ts ∧ checkExpression ts = .ok () ∧
        Rpn.ofInfix ts = e.postorder) ↔
      ∀ l r, .binary .sub l r ∈ e.parts → l.EndsInOperand := by
  constructor
  · intro h l r hmem
    obtain ⟨s, ts, hscan, hcheck, hrpn⟩ := h
    obtain ⟨e', he'⟩ := (checkExpression_eq_ok_iff.mp hcheck).1.exists_reads
    have hsame : e' = e := Expr.postorder_injective (he'.ofInfix_eq.symm.trans hrpn)
    subst hsame
    exact he'.endsInOperand_of_sub (Token.scan_eq_ok_iff.mp hscan).1 hmem
  · intro h
    have he := Layout.sparse.reads_tokens e
    have hcanonical : Token.Canonical false (Layout.sparse.tokens e) :=
      Layout.sparse.canonical_tokens hoperands fun l r hmem =>
        ⟨Layout.sparse_left_sub l, Layout.afterNumber_sparse (h l r hmem)⟩
    -- in parentheses a lone operand passes the check too
    have hgroup : Reads .factor (.lpar :: Layout.sparse.tokens e ++ [.rpar]) e :=
      .group he.toSum
    obtain ⟨hscan, hcheck⟩ := readExpression_eq_ok_iff.mp
      (readExpression_joined (Token.canonical_group_iff.mpr hcanonical)
        hgroup.isExpression (by simp))
    exact ⟨_, _, hscan, hcheck, hgroup.ofInfix_eq⟩

/-- From a sum that ends in a product four can be subtracted, but not from a
product that ends in a sum. -/
theorem entered_iff_subtract_four :
    (∃ s ts, Token.scan s = .ok ts ∧ checkExpression ts = .ok () ∧
      Rpn.ofInfix ts = (Expr.binary .sub (.binary .add (.number "1")
        (.binary .mul (.number "2") (.number "3"))) (.number "4")).postorder) ∧
    ¬ ∃ s ts, Token.scan s = .ok ts ∧ checkExpression ts = .ok () ∧
      Rpn.ofInfix ts = (Expr.binary .sub (.binary .mul (.number "1")
        (.binary .add (.number "2") (.number "3"))) (.number "4")).postorder := by
  have hdigits : ∀ text ∈ ["1", "2", "3", "4"], Token.IsOperand text.toList := by
    decide +kernel
  constructor
  · refine (entered_iff fun text h => hdigits text ?_).mpr fun l r h => ?_
    · simpa [or_assoc] using h
    · have hsides : l = .binary .add (.number "1")
          (.binary .mul (.number "2") (.number "3")) ∧ r = .number "4" := by
        simpa using h
      rw [hsides.1]
      exact .product (.inl rfl) (.inl rfl) _ _ _
  · intro hentered
    have hends := (entered_iff fun text h => hdigits text ?_).mp hentered
      (.binary .mul (.number "1") (.binary .add (.number "2") (.number "3")))
      (.number "4") (by simp)
    · cases hends with
      | product plus _ _ _ _ => simp at plus
    · simpa [or_assoc] using h

end Calculator
