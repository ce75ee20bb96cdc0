import Calculator.Trace
import Calculator.Proofs.Grammar.Accepted
import Calculator.Proofs.Grammar.Reading
import Calculator.Proofs.Rpn.Order
import Calculator.Proofs.Token.Canonical

/-!
# The value of an input is the value of its tree

Tokens that pass the check have one tree, the conversion lists it in
postorder, and computing the postorder gives the value of the tree. An error
of the computation is that of the first part of the tree, in postorder, that
fails although its own branches have values: an operand that is not a finite
number, or a division by zero.
-/

namespace Calculator

/-! ## The first part that fails -/

namespace Expr

/-- The parts of a tree, each one after its own parts: the left branch, the
right branch, then the whole. -/
def parts : Expr → List Expr
  | number text => [.number text]
  | binary o l r => l.parts ++ r.parts ++ [.binary o l r]

@[simp] theorem mem_parts_number {p : Expr} {text : String} :
    p ∈ (number text).parts ↔ p = .number text :=
  List.mem_singleton

@[simp] theorem mem_parts_binary {p : Expr} {o : Operator} {l r : Expr} :
    p ∈ (binary o l r).parts ↔ p ∈ l.parts ∨ p ∈ r.parts ∨ p = .binary o l r := by
  simp [parts]

/-- `Fails e err`: the branches of `e` have values but `e` has not, because
of `err`. -/
inductive Fails : Expr → Error → Prop where
  | number {text : String} {err : Error} (h : readNumber text = .error err) :
      Fails (.number text) err
  | zeroDivisor {l r : Expr} {a b : Float} (ha : l.value = .ok a)
      (hb : r.value = .ok b) (hzero : Double.code b = 0) :
      Fails (.binary .div l r) .divisionByZero

/-- `FirstFails e err`: `err` is why the first part of `e` fails that does. -/
def FirstFails (e : Expr) (err : Error) : Prop :=
  ∃ before d after, e.parts = before ++ d :: after ∧
    (∀ p ∈ before, ∃ v, p.value = .ok v) ∧ d.Fails err

theorem Fails.value_eq {e : Expr} {err : Error} (h : e.Fails err) :
    e.value = .error err := by
  cases h with
  | number h => exact h
  | zeroDivisor ha hb hzero =>
      rw [value, ha, hb]
      exact Operator.apply_eq_error_iff.mpr ⟨rfl, hzero, rfl⟩

/-- Only an operand or a division by zero can fail. -/
theorem Fails.error_eq {e : Expr} {err : Error} (h : e.Fails err) :
    (∃ text fault, err = .unreadableNumber text fault) ∨
      (∃ text, err = .nonFiniteNumber text) ∨ err = .divisionByZero := by
  cases h with
  | number h =>
      cases (readNumber_eq_error_iff []).mp h with
      | unreadable _ => exact .inl ⟨_, _, rfl⟩
      | nonFinite _ _ => exact .inr (.inl ⟨_, rfl⟩)
  | zeroDivisor _ _ _ => exact .inr (.inr rfl)

/-- The value of a fork needs the values of both branches. -/
theorem value_binary_eq_ok_iff {o : Operator} {l r : Expr} {v : Float} :
    (binary o l r).value = .ok v ↔
      ∃ a b, l.value = .ok a ∧ r.value = .ok b ∧ o.apply a b = .ok v := by
  rw [value, bind_eq_ok_iff]
  constructor
  · intro h
    obtain ⟨a, ha, h⟩ := h
    obtain ⟨b, hb, hv⟩ := bind_eq_ok_iff.mp h
    exact ⟨a, b, ha, hb, hv⟩
  · intro h
    obtain ⟨a, b, ha, hb, hv⟩ := h
    exact ⟨a, ha, bind_eq_ok_iff.mpr ⟨b, hb, hv⟩⟩

/-- The error of a fork comes from the left branch, or else from the right
one, or else from its own operator. -/
theorem value_binary_eq_error_iff {o : Operator} {l r : Expr} {err : Error} :
    (binary o l r).value = .error err ↔
      l.value = .error err ∨
      (∃ a, l.value = .ok a ∧ r.value = .error err) ∨
      ∃ a b, l.value = .ok a ∧ r.value = .ok b ∧ o.apply a b = .error err := by
  rw [value, bind_eq_error_iff]
  constructor
  · intro h
    rcases h with h | ⟨a, ha, h⟩
    · exact .inl h
    · rcases bind_eq_error_iff.mp h with h | ⟨b, hb, h⟩
      · exact .inr (.inl ⟨a, ha, h⟩)
      · exact .inr (.inr ⟨a, b, ha, hb, h⟩)
  · intro h
    rcases h with h | ⟨a, ha, h⟩ | ⟨a, b, ha, hb, h⟩
    · exact .inl h
    · exact .inr ⟨a, ha, bind_eq_error_iff.mpr (.inl h)⟩
    · exact .inr ⟨a, ha, bind_eq_error_iff.mpr (.inr ⟨b, hb, h⟩)⟩

/-- If a tree has a value, all its parts have one. -/
theorem exists_value_of_mem_parts {e p : Expr} {v : Float}
    (h : e.value = .ok v) (hp : p ∈ e.parts) : ∃ w, p.value = .ok w := by
  induction e generalizing v with
  | number text =>
      rw [mem_parts_number.mp hp]
      exact ⟨v, h⟩
  | binary o l r ihl ihr =>
      obtain ⟨a, b, ha, hb, _⟩ := value_binary_eq_ok_iff.mp h
      rcases mem_parts_binary.mp hp with hp | hp | rfl
      · exact ihl ha hp
      · exact ihr hb hp
      · exact ⟨v, h⟩

/-- An error of a tree is that of its first part that fails. -/
theorem firstFails_of_value {e : Expr} {err : Error}
    (h : e.value = .error err) : e.FirstFails err := by
  induction e with
  | number text =>
      exact ⟨[], .number text, [], rfl, by simp, .number h⟩
  | binary o l r ihl ihr =>
      rcases value_binary_eq_error_iff.mp h with
        h | ⟨a, ha, h⟩ | ⟨a, b, ha, hb, h⟩
      · obtain ⟨before, d, after, hsplit, hbefore, hd⟩ := ihl h
        exact ⟨before, d, after ++ r.parts ++ [.binary o l r],
          by simp [parts, hsplit], hbefore, hd⟩
      · obtain ⟨before, d, after, hsplit, hbefore, hd⟩ := ihr h
        refine ⟨l.parts ++ before, d, after ++ [.binary o l r],
          by simp [parts, hsplit], ?_, hd⟩
        intro p hp
        rcases List.mem_append.mp hp with hp | hp
        · exact exists_value_of_mem_parts ha hp
        · exact hbefore p hp
      · obtain ⟨rfl, hzero, rfl⟩ := Operator.apply_eq_error_iff.mp h
        refine ⟨l.parts ++ r.parts, _, [], rfl, ?_, .zeroDivisor ha hb hzero⟩
        intro p hp
        rcases List.mem_append.mp hp with hp | hp
        · exact exists_value_of_mem_parts ha hp
        · exact exists_value_of_mem_parts hb hp

theorem Fails.not_exists_value {e : Expr} {err : Error} (h : e.Fails err) :
    ¬ ∃ v, e.value = .ok v := by
  intro hvalue
  obtain ⟨v, hv⟩ := hvalue
  rw [h.value_eq] at hv
  cases hv

/-- The error of a tree is that of its first part that fails. -/
theorem value_eq_error_iff {e : Expr} {err : Error} :
    e.value = .error err ↔ e.FirstFails err := by
  constructor
  · exact firstFails_of_value
  · intro h
    obtain ⟨before, d, after, hsplit, hbefore, hd⟩ := h
    cases hvalue : e.value with
    | ok v =>
        have hmem : d ∈ e.parts := by simp [hsplit]
        exact absurd (exists_value_of_mem_parts hvalue hmem) hd.not_exists_value
    | error err' =>
        -- both errors are those of the first part without a value
        obtain ⟨before', d', after', hsplit', hbefore', hd'⟩ :=
          firstFails_of_value hvalue
        have hsame : d = d' := eq_of_append_cons_eq (hsplit.symm.trans hsplit')
          hbefore hd.not_exists_value hbefore' hd'.not_exists_value
        subst hsame
        rw [← hd.value_eq, ← hd'.value_eq]

/-- No tree fails for the shape of its expression. -/
theorem error_eq_of_value {e : Expr} {err : Error} (h : e.value = .error err) :
    (∃ text fault, err = .unreadableNumber text fault) ∨
      (∃ text, err = .nonFiniteNumber text) ∨ err = .divisionByZero := by
  obtain ⟨_, _, _, _, _, hd⟩ := value_eq_error_iff.mp h
  exact hd.error_eq

end Expr

/-! ## From an input to the value of its tree -/

theorem readExpression_eq_ok_iff {input : String} {ts : List Token} :
    readExpression input = .ok ts ↔
      Token.scan input = .ok ts ∧ checkExpression ts = .ok () := by
  rw [readExpression, bind_eq_ok_iff]
  constructor
  · intro h
    obtain ⟨us, hscan, h⟩ := h
    obtain ⟨_, hcheck, hts⟩ := bind_eq_ok_iff.mp h
    cases hts
    exact ⟨hscan, mapError_eq_ok_iff.mp hcheck⟩
  · intro h
    obtain ⟨hscan, hcheck⟩ := h
    exact ⟨ts, hscan, bind_eq_ok_iff.mpr ⟨(), mapError_eq_ok_iff.mpr hcheck, rfl⟩⟩

/-- Once the tokens of an input form an expression, its value is that of the
tree of the expression. -/
theorem evaluate_eq_value {input : String} {ts : List Token} {e : Expr}
    (hread : readExpression input = .ok ts) (he : Reads .sum ts e) :
    evaluate input = e.value := by
  rw [evaluate, hread]
  show Rpn.value (Rpn.ofInfix ts) = e.value
  rw [he.ofInfix_eq, e.value_postorder]

/-- **The pipeline computes the tree**: no list of tokens has two trees; the
tokens that pass the check have one, the conversion lists it in postorder,
the value of the input is its value, and an error is that of its first part
in postorder that fails. After the check no error is about the shape of the
expression. -/
theorem evaluate_by_tree {input : String} {ts : List Token}
    (hscan : Token.scan input = .ok ts) (hcheck : checkExpression ts = .ok ()) :
    (∀ us d d', Reads .sum us d → Reads .sum us d' → d = d') ∧
    ∃ e, Reads .sum ts e ∧
      Rpn.ofInfix ts = e.postorder ∧
      evaluate input = e.value ∧
      (∀ err, evaluate input = .error err ↔ e.FirstFails err) ∧
      (∀ reason, evaluate input ≠ .error (.invalidExpression reason)) ∧
      (∀ symbol, evaluate input ≠ .error (.invalidOperation symbol)) := by
  refine ⟨fun us d d' h h' => h.unique h', ?_⟩
  obtain ⟨e, he⟩ := (checkExpression_eq_ok_iff.mp hcheck).1.exists_reads
  have hvalue : evaluate input = e.value :=
    evaluate_eq_value (readExpression_eq_ok_iff.mpr ⟨hscan, hcheck⟩) he
  refine ⟨e, he, he.ofInfix_eq, hvalue, ?_, ?_, ?_⟩
  · intro err
    rw [hvalue]
    exact Expr.value_eq_error_iff
  · intro reason h
    rw [hvalue] at h
    have hkind := Expr.error_eq_of_value h
    simp at hkind
  · intro symbol h
    rw [hvalue] at h
    have hkind := Expr.error_eq_of_value h
    simp at hkind

/-- The product takes the quotient before it, the difference all that follows,
and the second minus of the group is a sign. -/
theorem evaluate_by_tree_group :
    let ts : List Token := [.number "8", .op .sub, .number "4", .op .div, .number "2",
      .op .mul, .lpar, .number "1", .op .sub, .number "-1", .rpar]
    let e : Expr := .binary .sub (.number "8")
      (.binary .mul (.binary .div (.number "4") (.number "2"))
        (.binary .sub (.number "1") (.number "-1")))
    Token.scan "8-4/2*(1--1)" = .ok ts ∧ checkExpression ts = .ok () ∧
      Reads .sum ts e ∧ evaluate "8-4/2*(1--1)" = e.value ∧
      evaluate "8-4/2*(1--1)" = .ok 4 := by
  intro ts e
  have hscan : Token.scan "8-4/2*(1--1)" = .ok ts :=
    Token.scan_eq_ok_iff.mpr (by decide +kernel)
  have hcheck : checkExpression ts = .ok () := rfl
  obtain ⟨_, e', hreads, hrpn, hvalue, _⟩ := evaluate_by_tree hscan hcheck
  obtain rfl : e' = e := Expr.postorder_injective (hrpn.symm.trans rfl)
  have hfour : e.value = .ok 4 := toOption_eq_some_iff.mp (by decide +kernel)
  exact ⟨hscan, hcheck, hreads, hvalue, hvalue.trans hfour⟩

end Calculator
