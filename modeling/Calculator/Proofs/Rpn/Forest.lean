import Calculator.Expr
import Calculator.Proofs.Double.Zero
import Calculator.Proofs.Outcome

/-!
# Computing any list of tokens

The computation takes every list of tokens, also one that no conversion
made. As long as no token is faulty, what was read is the postorder of some
trees, one after the other, and the stack holds their values. So a list has a
value exactly if it is the postorder of one tree that has this value, and
otherwise the first faulty token, or the number of trees, gives the error.
-/

namespace Calculator

/-! ## Postorder determines the tree -/

namespace Expr

/-- The tree at the end of a list of tokens can be read off the list. -/
theorem eq_of_append_postorder {e e' : Expr} {ts ts' : List Token}
    (h : ts ++ e.postorder = ts' ++ e'.postorder) : ts = ts' ∧ e = e' := by
  induction e generalizing e' ts ts' with
  | number text =>
      cases e' with
      | number text' =>
          obtain ⟨hts, hlast⟩ := List.append_inj' h rfl
          cases hlast
          exact ⟨hts, rfl⟩
      | binary o l r =>
          rw [postorder, postorder, ← List.append_assoc] at h
          cases (List.append_inj' h rfl).2
  | binary o l r ihl ihr =>
      cases e' with
      | number text =>
          rw [postorder, postorder, ← List.append_assoc] at h
          cases (List.append_inj' h rfl).2
      | binary o' l' r' =>
          simp only [postorder, ← List.append_assoc] at h
          obtain ⟨hbranches, hlast⟩ := List.append_inj' h rfl
          cases hlast
          obtain ⟨hleft, rfl⟩ := ihr hbranches
          obtain ⟨hts, rfl⟩ := ihl hleft
          exact ⟨hts, rfl⟩

theorem postorder_injective {e e' : Expr} (h : e.postorder = e'.postorder) :
    e = e' := by
  have happend : [] ++ e.postorder = [] ++ e'.postorder := h
  exact (eq_of_append_postorder happend).2

end Expr

/-! ## Faulty tokens -/

namespace Rpn

/-- `Faulty stack t err`: with `stack` left by the tokens before it, the token
`t` cannot be obeyed, and `err` says why. -/
inductive Faulty (stack : List Float) : Token → Error → Prop where
  /-- The text spells no number. -/
  | unreadable {text : String} (h : Literal.ofChars? text.toList = none) :
      Faulty stack (.number text)
        (.unreadableNumber text (if text = "" then .empty else .malformed))
  /-- The text spells a number that no finite double stands for. -/
  | nonFinite {text : String} {literal : Literal}
      (h : Literal.ofChars? text.toList = some literal)
      (hinf : literal.toFloat.isFinite = false) :
      Faulty stack (.number text) (.nonFiniteNumber text)
  /-- An operator or a parenthesis finds fewer than two values. -/
  | missingOperand (s : Symbol) (h : stack.length < 2) :
      Faulty stack (.symbol s) (.invalidExpression (.missingOperand s))
  /-- A parenthesis finds two values. -/
  | parenthesis {s : Symbol} (hs : s.isBinary = false)
      (h : 2 ≤ stack.length) :
      Faulty stack (.symbol s) (.invalidOperation s)
  /-- The right operand of a division is a zero, whatever its sign. -/
  | zeroDivisor {a b : Float} {rest : List Float}
      (h : stack = b :: a :: rest) (hb : Double.code b = 0) :
      Faulty stack (.op .div) .divisionByZero

end Rpn

/-- An operator fails only in a division by zero. -/
theorem Operator.apply_eq_error_iff {o : Operator} {a b : Float} {err : Error} :
    o.apply a b = .error err ↔
      o = .div ∧ Double.code b = 0 ∧ err = .divisionByZero := by
  cases o with
  | add => simp [apply]
  | sub => simp [apply]
  | mul => simp [apply]
  | div =>
      unfold apply
      by_cases hb : (b == 0) = true
      · rw [if_pos hb]
        simp [Double.beq_zero_iff.mp hb, eq_comm]
      · rw [if_neg hb]
        simp [mt Double.beq_zero_iff.mpr hb]

theorem readNumber_eq_error_iff {text : String} {err : Error}
    (stack : List Float) :
    readNumber text = .error err ↔ Rpn.Faulty stack (.number text) err := by
  unfold readNumber
  constructor
  · intro h
    split at h
    · rename_i hnone
      cases h
      exact .unreadable hnone
    · rename_i literal hsome
      split at h
      · cases h
      · rename_i hinf
        cases h
        exact .nonFinite hsome (by simpa using hinf)
  · intro h
    cases h with
    | unreadable hnone => rw [hnone]
    | nonFinite hsome hinf => simp [hsome, hinf]

namespace Rpn

theorem push_symbol_of_length_lt {stack : List Float} (h : stack.length < 2)
    (s : Symbol) :
    push stack (.symbol s) = .error (.invalidExpression (.missingOperand s)) := by
  match stack, h with
  | [], _ => rfl
  | [_], _ => rfl

theorem exists_eq_cons_cons {stack : List Float} (h : 2 ≤ stack.length) :
    ∃ b a rest, stack = b :: a :: rest := by
  match stack, h with
  | b :: a :: rest, _ => exact ⟨b, a, rest, rfl⟩

/-- The errors of one token are those of a faulty token. -/
theorem push_eq_error_iff {stack : List Float} {t : Token} {err : Error} :
    push stack t = .error err ↔ Faulty stack t err := by
  cases t with
  | number text =>
      rw [push, map_eq_error_iff]
      exact readNumber_eq_error_iff stack
  | symbol s =>
      by_cases hshort : stack.length < 2
      · rw [push_symbol_of_length_lt hshort]
        constructor
        · intro h
          cases h
          exact .missingOperand s hshort
        · intro h
          cases h with
          | missingOperand => rfl
          | parenthesis _ h => omega
          | zeroDivisor h =>
              rw [h, List.length_cons, List.length_cons] at hshort
              omega
      · obtain ⟨b, a, rest, rfl⟩ := exists_eq_cons_cons (Nat.le_of_not_lt hshort)
        rw [push, map_eq_error_iff]
        constructor
        · intro h
          cases s with
          | op o =>
              obtain ⟨rfl, hb, rfl⟩ := Operator.apply_eq_error_iff.mp h
              exact .zeroDivisor rfl hb
          | lpar =>
              cases h
              exact .parenthesis rfl (by simp)
          | rpar =>
              cases h
              exact .parenthesis rfl (by simp)
        · intro h
          cases h with
          | missingOperand _ h => exact absurd h hshort
          | parenthesis hs _ =>
              cases s with
              | op o => cases hs
              | lpar => rfl
              | rpar => rfl
          | zeroDivisor h hb =>
              cases h
              exact Operator.apply_eq_error_iff.mpr ⟨rfl, hb, rfl⟩

/-! ## The stack holds the values of trees -/

/-- `Leaves ts stack`: the tokens are the postorder of some trees, one after
the other, and their values are the stack, the last one on top. -/
inductive Leaves : List Token → List Float → Prop where
  | nil : Leaves [] []
  | tree {ts : List Token} {stack : List Float} {e : Expr} {v : Float} :
      Leaves ts stack → e.value = .ok v →
        Leaves (ts ++ e.postorder) (v :: stack)

theorem Leaves.pushAll_eq {ts : List Token} {stack : List Float}
    (h : Leaves ts stack) : pushAll [] ts = .ok stack := by
  induction h with
  | nil => rfl
  | tree _ hv ih =>
      rw [pushAll_append, ih]
      show pushAll _ _ = _
      rw [Expr.pushAll_postorder, hv]
      rfl

/-- A token that is obeyed makes a new tree: a leaf, or a fork over the two
latest trees. -/
theorem Leaves.push {ts : List Token} {stack stack' : List Float} {t : Token}
    (h : Leaves ts stack) (hpush : Rpn.push stack t = .ok stack') :
    Leaves (ts ++ [t]) stack' := by
  cases t with
  | number text =>
      obtain ⟨v, hv, rfl⟩ := map_eq_ok_iff.mp hpush
      exact .tree (e := .number text) h hv
  | symbol s =>
      cases h with
      | nil => cases hpush
      | @tree us rest r b h hb =>
          cases h with
          | nil => cases hpush
          | @tree us rest l a h ha =>
              obtain ⟨c, hc, rfl⟩ := map_eq_ok_iff.mp hpush
              cases s with
              | op o =>
                  have hvalue : (Expr.binary o l r).value = .ok c := by
                    rw [Expr.value, ha, hb]
                    exact hc
                  simpa [Expr.postorder] using Leaves.tree h hvalue
              | lpar => cases hc
              | rpar => cases hc

theorem Leaves.pushAll {ts us : List Token} {stack stack' : List Float}
    (h : Leaves ts stack) (hpush : Rpn.pushAll stack us = .ok stack') :
    Leaves (ts ++ us) stack' := by
  induction us generalizing ts stack with
  | nil =>
      cases hpush
      simpa using h
  | cons u us ih =>
      rw [pushAll_cons, bind_eq_ok_iff] at hpush
      obtain ⟨middle, hu, hus⟩ := hpush
      simpa using ih (h.push hu) hus

/-- The stack after tokens that were all obeyed. -/
theorem pushAll_eq_ok_iff {ts : List Token} {stack : List Float} :
    pushAll [] ts = .ok stack ↔ Leaves ts stack := by
  constructor
  · intro h
    exact Leaves.pushAll .nil h
  · intro h
    exact h.pushAll_eq

/-- One value is left by one tree. -/
theorem leaves_singleton_iff {ts : List Token} {v : Float} :
    Leaves ts [v] ↔ ∃ e : Expr, e.postorder = ts ∧ e.value = .ok v := by
  constructor
  · intro h
    cases h with
    | @tree us _ e _ h hv =>
        cases h
        exact ⟨e, rfl, hv⟩
  · intro h
    obtain ⟨e, rfl, hv⟩ := h
    exact .tree .nil hv

/-! ## The last value -/

theorem single_eq_ok_iff {stack : List Float} {v : Float} :
    single stack = .ok v ↔ stack = [v] := by
  match stack with
  | [] => simp [single]
  | [w] => simp [single]
  | _ :: _ :: _ => simp [single]

theorem single_eq_error_iff {stack : List Float} {err : Error} :
    single stack = .error err ↔
      stack.length ≠ 1 ∧
        err = .invalidExpression (.valuesLeft stack.length) := by
  match stack with
  | [] => simp [single, eq_comm]
  | [w] => simp [single]
  | _ :: _ :: _ => simp [single, eq_comm]

/-! ## The value of any list -/

theorem value_eq_ok_iff {ts : List Token} {v : Float} :
    value ts = .ok v ↔ ∃ e : Expr, e.postorder = ts ∧ e.value = .ok v := by
  rw [value, bind_eq_ok_iff, ← leaves_singleton_iff, ← pushAll_eq_ok_iff]
  constructor
  · intro h
    obtain ⟨stack, hstack, hv⟩ := h
    rw [single_eq_ok_iff.mp hv] at hstack
    exact hstack
  · intro h
    exact ⟨[v], h, rfl⟩

/-- The first faulty token gives the error; if there is none, the number of
values left does. -/
theorem value_eq_error_iff {ts : List Token} {err : Error} :
    value ts = .error err ↔
      (∃ before t after stack, ts = before ++ t :: after ∧
        Leaves before stack ∧ Faulty stack t err) ∨
      ∃ stack, Leaves ts stack ∧ stack.length ≠ 1 ∧
        err = .invalidExpression (.valuesLeft stack.length) := by
  rw [value, bind_eq_error_iff, pushAll, foldlM_eq_error_iff]
  apply or_congr
  · constructor
    · intro h
      obtain ⟨before, t, after, stack, hsplit, hbefore, ht⟩ := h
      exact ⟨before, t, after, stack, hsplit, pushAll_eq_ok_iff.mp hbefore,
        push_eq_error_iff.mp ht⟩
    · intro h
      obtain ⟨before, t, after, stack, hsplit, hbefore, ht⟩ := h
      exact ⟨before, t, after, stack, hsplit, pushAll_eq_ok_iff.mpr hbefore,
        push_eq_error_iff.mpr ht⟩
  · constructor
    · intro h
      obtain ⟨stack, hstack, hv⟩ := h
      exact ⟨stack, pushAll_eq_ok_iff.mp hstack, single_eq_error_iff.mp hv⟩
    · intro h
      obtain ⟨stack, hstack, hv⟩ := h
      exact ⟨stack, pushAll_eq_ok_iff.mpr hstack, single_eq_error_iff.mpr hv⟩

/-- **Computing any list of tokens**: it has the value `v` exactly if it is
the postorder of a tree with the value `v`, no two trees have one postorder,
and any other list fails with the error of its first faulty token or, if no
token is faulty, with the number of values left. -/
theorem value_by_tree_or_first_fault (ts : List Token) :
    (∀ v, value ts = .ok v ↔
      ∃ e : Expr, e.postorder = ts ∧ e.value = .ok v) ∧
    (∀ e e' : Expr, e.postorder = ts → e'.postorder = ts → e = e') ∧
    (∀ err, value ts = .error err ↔
      (∃ before t after stack, ts = before ++ t :: after ∧
        Leaves before stack ∧ Faulty stack t err) ∨
      ∃ stack, Leaves ts stack ∧ stack.length ≠ 1 ∧
        err = .invalidExpression (.valuesLeft stack.length)) := by
  refine ⟨fun v => value_eq_ok_iff, ?_, fun err => value_eq_error_iff⟩
  intro e e' he he'
  exact Expr.postorder_injective (he.trans he'.symm)

end Rpn

end Calculator
