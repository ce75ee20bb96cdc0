import Calculator.Proofs.Rpn.Levels
import Mathlib.Data.List.Count

/-!
# The conversion keeps its tokens

An operand goes straight out. An operator waits, and it goes out once: when
another one takes its place, with the end of its group, or with the end of all.
So the operands come out in the order in which they came in, and every operator
as often as it came in, whether or not the tokens form an expression. Only
parentheses are lost: a closing one never waits, and an opening one that waits is
taken off by its closing one.
-/

namespace Calculator.Rpn

/-! ## Operands -/

theorem filter_isNumber_map_symbol (w : List Symbol) :
    (w.map Token.symbol).filter Token.isNumber = [] := by
  simp [List.filter_eq_nil_iff, Token.isNumber]

/-- The only operand that a token sends out is itself. -/
theorem filter_isNumber_released (w : List Symbol) (t : Token) :
    (released w t).filter Token.isNumber = [t].filter Token.isNumber := by
  cases t with
  | number text => rfl
  | symbol s =>
      cases s with
      | op o => exact filter_isNumber_map_symbol _
      | lpar => rfl
      | rpar => exact filter_isNumber_map_symbol _

theorem filter_isNumber_releasedAll (w : List Symbol) (ts : List Token) :
    (releasedAll w ts).filter Token.isNumber = ts.filter Token.isNumber := by
  induction ts generalizing w with
  | nil => rfl
  | cons t ts ih =>
      rw [releasedAll, List.filter_append, filter_isNumber_released, ih,
        ← List.filter_append, List.singleton_append]

/-! ## Operators -/

theorem mem_map_symbol {w : List Symbol} {s : Symbol} :
    .symbol s ∈ w.map Token.symbol ↔ s ∈ w := by
  simp

theorem count_map_symbol (w : List Symbol) (s : Symbol) :
    (w.map Token.symbol).count (.symbol s) = w.count s :=
  List.count_map_of_injective w Token.symbol (fun _ _ h => Token.symbol.inj h) s

/-- The tail that a closing parenthesis leaves lacks an opening one at most. -/
theorem count_op_tail_dropWhile (w : List Symbol) (o : Operator) :
    (w.dropWhile (· != .lpar)).tail.count (.op o)
      = (w.dropWhile (· != .lpar)).count (.op o) := by
  have hhead := head_dropWhile (· != Symbol.lpar) w
  cases hrest : w.dropWhile (· != .lpar) with
  | nil => rfl
  | cons s rest =>
      rw [hrest] at hhead
      have hs : s = .lpar := by simpa using hhead s rfl
      rw [List.tail_cons, hs, List.count_cons_of_ne (by simp)]

/-- An operator goes out or waits on, and a new one waits once. -/
theorem count_op_released_add_advance (w : List Symbol) (t : Token) (o : Operator) :
    (released w t).count (.op o) + (advance w t).count (.op o)
      = w.count (.op o) + [t].count (.op o) := by
  cases t with
  | number text => simp [released, advance]
  | symbol s =>
      cases s with
      | op p =>
          have hcut := count_takeWhile_add_dropWhile (yields p) w (.op o)
          rw [released, advance, count_map_symbol, List.count_cons, ← hcut,
            List.count_singleton]
          simp [Nat.add_assoc]
      | lpar => simp [released, advance]
      | rpar =>
          have hcut := count_takeWhile_add_dropWhile (· != .lpar) w (.op o)
          rw [released, advance, count_map_symbol, count_op_tail_dropWhile, hcut,
            List.count_singleton, if_neg (by simp), Nat.add_zero]

theorem count_op_releasedAll_add_advanceAll (w : List Symbol) (ts : List Token)
    (o : Operator) :
    (releasedAll w ts).count (.op o) + (advanceAll w ts).count (.op o)
      = w.count (.op o) + ts.count (.op o) := by
  induction ts generalizing w with
  | nil => simp [releasedAll]
  | cons t ts ih =>
      have hstep := count_op_released_add_advance w t o
      have hrest := ih (advance w t)
      rw [releasedAll, advanceAll_cons, List.count_append, ← List.singleton_append,
        List.count_append]
      omega

/-! ## Parentheses -/

/-- What goes out has waited, and an opening parenthesis does not go out. -/
theorem waited_of_mem_released {w : List Symbol} {t : Token} {s : Symbol}
    (h : .symbol s ∈ released w t) : s ∈ w ∧ s ≠ .lpar := by
  cases t with
  | number text => simp [released] at h
  | symbol r =>
      cases r with
      | op o =>
          have hmem := mem_map_symbol.mp h
          have hbinary := isBinary_of_yields (List.all_eq_true.mp List.all_takeWhile _ hmem)
          exact ⟨(List.takeWhile_sublist _).mem hmem, by rintro rfl; cases hbinary⟩
      | lpar => simp [released] at h
      | rpar =>
          have hmem := mem_map_symbol.mp h
          have hne := List.all_eq_true.mp List.all_takeWhile _ hmem
          exact ⟨(List.takeWhile_sublist _).mem hmem, by simpa using hne⟩

theorem rpar_not_mem_advance {w : List Symbol} (h : .rpar ∉ w) (t : Token) :
    .rpar ∉ advance w t := by
  cases t with
  | number text => exact h
  | symbol s =>
      cases s with
      | op o =>
          intro hmem
          rcases List.mem_cons.mp hmem with hop | hmem
          · cases hop
          · exact h ((List.dropWhile_sublist _).mem hmem)
      | lpar =>
          intro hmem
          rcases List.mem_cons.mp hmem with hlpar | hmem
          · cases hlpar
          · exact h hmem
      | rpar =>
          intro hmem
          exact h ((List.dropWhile_sublist _).mem (List.mem_of_mem_tail hmem))

theorem rpar_not_mem_advanceAll {w : List Symbol} (h : .rpar ∉ w) (ts : List Token) :
    .rpar ∉ advanceAll w ts := by
  induction ts generalizing w with
  | nil => exact h
  | cons t ts ih => exact ih (rpar_not_mem_advance h t)

/-- No parenthesis goes out on the way. -/
theorem ne_of_mem_releasedAll {w : List Symbol} (h : .rpar ∉ w) {ts : List Token}
    {s : Symbol} (hs : .symbol s ∈ releasedAll w ts) : s ≠ .lpar ∧ s ≠ .rpar := by
  induction ts generalizing w with
  | nil => simp [releasedAll] at hs
  | cons t ts ih =>
      rcases List.mem_append.mp hs with hmem | hmem
      · obtain ⟨hwaited, hlpar⟩ := waited_of_mem_released hmem
        exact ⟨hlpar, fun hrpar => h (hrpar ▸ hwaited)⟩
      · exact ih (rpar_not_mem_advance h t) hmem

/-- Nor in the end, if none is left. -/
theorem ne_of_mem_ofInfix {ts : List Token} (h : .lpar ∉ advanceAll [] ts) {s : Symbol}
    (hs : .symbol s ∈ ofInfix ts) : s ≠ .lpar ∧ s ≠ .rpar := by
  rcases List.mem_append.mp hs with hmem | hmem
  · exact ne_of_mem_releasedAll (by simp) hmem
  · have hwaits := mem_map_symbol.mp hmem
    have hrpar : .rpar ∉ advanceAll [] ts := rpar_not_mem_advanceAll (by simp) ts
    exact ⟨fun e => h (e ▸ hwaits), fun e => hrpar (e ▸ hwaits)⟩

/-! ## A whole list -/

theorem filter_isNumber_ofInfix (ts : List Token) :
    (ofInfix ts).filter Token.isNumber = ts.filter Token.isNumber := by
  rw [ofInfix, List.filter_append, filter_isNumber_releasedAll,
    filter_isNumber_map_symbol, List.append_nil]

theorem count_op_ofInfix (ts : List Token) (o : Operator) :
    (ofInfix ts).count (.op o) = ts.count (.op o) := by
  have hall := count_op_releasedAll_add_advanceAll [] ts o
  rw [List.count_nil, Nat.zero_add] at hall
  rw [ofInfix, List.count_append, count_map_symbol, hall]

/-- **The conversion keeps its tokens**: of balanced tokens, whether or not they
form an expression, every closing parenthesis finds an opening one and none is
left over, no parenthesis comes out, the operands come out in their order, and
every operator comes out as often as it came in. -/
theorem ofInfix_keeps {ts : List Token} (h : Balanced ts) :
    Settles ts ∧
    .lpar ∉ ofInfix ts ∧ .rpar ∉ ofInfix ts ∧
    (ofInfix ts).filter Token.isNumber = ts.filter Token.isNumber ∧
    ∀ o, (ofInfix ts).count (.op o) = ts.count (.op o) := by
  have hsettles := settles_iff_balanced.mpr h
  refine ⟨hsettles, fun hmem => ?_, fun hmem => ?_, filter_isNumber_ofInfix ts,
    count_op_ofInfix ts⟩
  · exact (ne_of_mem_ofInfix hsettles.ending hmem).1 rfl
  · exact (ne_of_mem_ofInfix hsettles.ending hmem).2 rfl

/-- Of `(+1(*))2-`, which is balanced and no expression, both operands and all
three operators come out. -/
theorem ofInfix_keeps_no_expression :
    let ts : List Token := [.lpar, .op .add, .number "1", .lpar, .op .mul, .rpar,
      .rpar, .number "2", .op .sub]
    (Balanced ts ∧
      ofInfix ts = [.number "1", .op .mul, .op .add, .number "2", .op .sub]) ∧
    Settles ts ∧
    .lpar ∉ ofInfix ts ∧ .rpar ∉ ofInfix ts ∧
    (ofInfix ts).filter Token.isNumber = [.number "1", .number "2"] ∧
    ∀ o, (ofInfix ts).count (.op o) = ts.count (.op o) := by
  intro ts
  have hbalanced : Balanced ts := by decide
  exact ⟨⟨hbalanced, rfl⟩, ofInfix_keeps hbalanced⟩

end Calculator.Rpn
