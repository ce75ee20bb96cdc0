import Calculator.Grammar
import Calculator.Grammar.Check
import Calculator.Proofs.Outcome

/-!
# Which lists of tokens the check accepts

The check looks at the token before and counts parentheses; the grammar
speaks of derivations. What ties them is the shape of all that was read: an
opening, in which an operand is due, or an opening with one expression
behind it. Each token keeps that shape, and at the end of the list the
opening folds into the expression behind it.
-/

namespace Calculator

/-! ## The check as a relation -/

namespace Progress

/-- `Step p t q`: the token `t` may come after `p` and leads to `q`. There is
one constructor for every kind of token. -/
inductive Step : Progress → Token → Progress → Prop where
  | number {p : Progress} (text : String)
      (due : Token.operandDue p.previous = true) :
      Step p (.number text) ⟨p.position + 1, some (.number text), p.opened⟩
  | lpar {p : Progress} (due : Token.operandDue p.previous = true) :
      Step p .lpar ⟨p.position + 1, some .lpar, p.position :: p.opened⟩
  | op {p : Progress} (o : Operator)
      (due : Token.operandDue p.previous = false) :
      Step p (.op o) ⟨p.position + 1, some (.op o), p.opened⟩
  | rpar {p : Progress} {i : Nat} {outer : List Nat}
      (due : Token.operandDue p.previous = false)
      (opened : p.opened = i :: outer) :
      Step p .rpar ⟨p.position + 1, some .rpar, outer⟩

/-- The relation is the function. -/
theorem step_eq_ok_iff {p q : Progress} {t : Token} :
    p.step t = .ok q ↔ Step p t q := by
  constructor
  · intro h
    unfold step at h
    split at h
    · rename_i hdue
      cases t with
      | number text =>
          cases h
          exact .number text hdue.symm
      | symbol s =>
          cases s with
          | op o =>
              cases h
              exact .op o hdue.symm
          | lpar =>
              cases h
              exact .lpar hdue.symm
          | rpar =>
              cases hopened : p.opened with
              | nil =>
                  rw [hopened] at h
                  cases h
              | cons i outer =>
                  rw [hopened] at h
                  cases h
                  exact .rpar hdue.symm hopened
    · cases h
  · intro h
    cases h with
    | number text due => simp [step, Token.startsOperand, due]
    | lpar due => simp [step, Token.startsOperand, due]
    | op o due => simp [step, Token.startsOperand, due]
    | rpar due opened => simp [step, Token.startsOperand, due, opened]

/-- `Run p ts q`: the tokens `ts` may come after `p`, one after the other,
and lead to `q`. -/
inductive Run : Progress → List Token → Progress → Prop where
  | nil {p : Progress} : Run p [] p
  | cons {p q r : Progress} {t : Token} {ts : List Token} :
      Step p t q → Run q ts r → Run p (t :: ts) r

namespace Run

theorem append {p q r : Progress} {ts us : List Token}
    (first : Run p ts q) (last : Run q us r) : Run p (ts ++ us) r := by
  induction first with
  | nil => exact last
  | cons hs _ ih => exact .cons hs (ih last)

theorem single {p q : Progress} {t : Token} (h : Step p t q) : Run p [t] q :=
  .cons h .nil

end Run

/-- The fold over a list of tokens is a run. -/
theorem foldlM_step_eq_ok_iff {p q : Progress} {ts : List Token} :
    ts.foldlM step p = .ok q ↔ Run p ts q := by
  induction ts generalizing p with
  | nil =>
      constructor
      · intro h
        cases h
        exact .nil
      · intro h
        cases h
        rfl
  | cons t ts ih =>
      rw [List.foldlM_cons, bind_eq_ok_iff]
      constructor
      · intro h
        obtain ⟨r, hs, hr⟩ := h
        exact .cons (step_eq_ok_iff.mp hs) (ih.mp hr)
      · intro h
        cases h with
        | cons hs hr => exact ⟨_, step_eq_ok_iff.mpr hs, ih.mpr hr⟩

/-- Tokens may end where no operand is due and no group is open. -/
theorem finish_eq_ok_iff {p : Progress} (h : p.previous ≠ none) :
    p.finish = .ok () ↔
      Token.operandDue p.previous = false ∧ p.opened = [] := by
  obtain ⟨position, previous, opened⟩ := p
  cases previous with
  | none => exact absurd rfl h
  | some t =>
      cases t with
      | number text => cases opened <;> simp [finish, Token.operandDue]
      | symbol s =>
          cases s <;> cases opened <;> simp [finish, Token.operandDue]

end Progress

/-! ## Every expression is read to its end -/

/-- Where an operand is due an expression may come, and after it no operand
is due and the same groups are open as before. -/
theorem IsExpression.run {ts : List Token} (h : IsExpression ts)
    {p : Progress} (due : Token.operandDue p.previous = true) :
    ∃ q, Progress.Run p ts q ∧ q.opened = p.opened ∧ q.previous ≠ none ∧
      Token.operandDue q.previous = false := by
  induction h generalizing p with
  | number text =>
      exact ⟨_, .single (.number text due), rfl, by simp, rfl⟩
  | group _ ih =>
      obtain ⟨q, hrun, hopened, _, hdue⟩ :=
        ih (p := ⟨p.position + 1, some .lpar, p.position :: p.opened⟩) rfl
      exact ⟨⟨q.position + 1, some .rpar, p.opened⟩,
        .cons (.lpar due) (hrun.append (.single (.rpar hdue hopened))),
        rfl, by simp, rfl⟩
  | binary o _ _ ihl ihr =>
      obtain ⟨q, hl, hopened, _, hdue⟩ := ihl due
      obtain ⟨r, hr, hopened', hne, hdue'⟩ :=
        ihr (p := ⟨q.position + 1, some (.op o), q.opened⟩) rfl
      exact ⟨r, hl.append (.cons (.op o hdue) hr), hopened'.trans hopened,
        hne, hdue'⟩

/-! ## Openings -/

/-- `Opening n ts`: the tokens `ts` begin an expression, `n` groups of it are
open, and an operand is due. -/
inductive Opening : Nat → List Token → Prop where
  | start : Opening 0 []
  | operator {n : Nat} {ts es : List Token} (o : Operator) :
      Opening n ts → IsExpression es → Opening n (ts ++ es ++ [.op o])
  | group {n : Nat} {ts : List Token} :
      Opening n ts → Opening (n + 1) (ts ++ [.lpar])

/-- An expression that ends an opening joins with all that stands before it
up to the innermost open group, or up to the start if no group is open. -/
theorem Opening.join {n : Nat} {ts es : List Token} (h : Opening n ts)
    (he : IsExpression es) :
    (n = 0 ∧ IsExpression (ts ++ es)) ∨
      ∃ m outer inner, n = m + 1 ∧ Opening m outer ∧ IsExpression inner ∧
        ts ++ es = outer ++ .lpar :: inner := by
  induction h generalizing es with
  | start => exact .inl ⟨rfl, he⟩
  | operator o _ hl ih =>
      -- the operator makes one expression of its left side and `es`
      have hjoined := ih (.binary o hl he)
      simpa using hjoined
  | @group n ts h _ => exact .inr ⟨n, ts, es, rfl, h, he, by simp⟩

/-! ## What was read -/

namespace Progress

/-- What `p` says of the tokens `ts` that were read: the token before is the
last of them, and they are an opening with as many open groups as `p` keeps,
with an expression behind it if no operand is due. -/
structure Follows (p : Progress) (ts : List Token) : Prop where
  previous : p.previous = ts.getLast?
  opening : Token.operandDue p.previous = true → Opening p.opened.length ts
  expression : Token.operandDue p.previous = false →
    ∃ us es, ts = us ++ es ∧ Opening p.opened.length us ∧ IsExpression es

theorem follows_nil : Follows {} [] where
  previous := rfl
  opening := fun _ => .start
  expression := fun h => by cases h

/-- One token keeps the shape of what was read. -/
theorem Step.follows {p q : Progress} {t : Token} {ts : List Token}
    (h : Step p t q) (hp : p.Follows ts) : q.Follows (ts ++ [t]) := by
  cases h with
  | number text due =>
      refine ⟨by simp, fun hdue => (by cases hdue), fun _ => ?_⟩
      exact ⟨ts, [.number text], rfl, hp.opening due, .number text⟩
  | lpar due =>
      exact ⟨by simp, fun _ => .group (hp.opening due),
        fun hdue => by cases hdue⟩
  | op o due =>
      refine ⟨by simp, fun _ => ?_, fun hdue => by cases hdue⟩
      obtain ⟨us, es, rfl, hus, hes⟩ := hp.expression due
      exact .operator o hus hes
  | @rpar i outer due opened =>
      refine ⟨by simp, fun hdue => (by cases hdue), fun _ => ?_⟩
      obtain ⟨us, es, rfl, hus, hes⟩ := hp.expression due
      rcases hus.join hes with ⟨hnone, _⟩ | ⟨m, before, inner, hm, hb, hi, heq⟩
      · simp [opened] at hnone
      · have hlen : outer.length = m := by
          simpa [opened] using hm
        refine ⟨before, .lpar :: inner ++ [.rpar], ?_, ?_, .group hi⟩
        · rw [heq]
          simp
        · rw [hlen]
          exact hb

/-- A run keeps the shape of what was read. -/
theorem Run.follows {p q : Progress} {ts us : List Token}
    (h : Run p us q) (hp : p.Follows ts) : q.Follows (ts ++ us) := by
  induction h generalizing ts with
  | nil => simpa using hp
  | cons hs _ ih => simpa using ih (hs.follows hp)

end Progress

/-! ## Acceptance -/

/-- The only expression of one token is an operand. -/
theorem IsExpression.length_eq_one_iff {ts : List Token} (h : IsExpression ts) :
    ts.length = 1 ↔ ∃ text, ts = [.number text] := by
  constructor
  · intro hlength
    cases h with
    | number text => exact ⟨text, rfl⟩
    | group _ => simp at hlength
    | binary o hl _ =>
        have := List.length_pos_iff.mpr hl.ne_nil
        simp at hlength
        omega
  · intro h
    obtain ⟨text, rfl⟩ := h
    rfl

/-- A run over some tokens that may end there has read an expression. -/
theorem Progress.Run.isExpression {q : Progress} {ts : List Token}
    (h : Progress.Run {} ts q) (hne : ts ≠ []) (hfinish : q.finish = .ok ()) :
    IsExpression ts := by
  have hfollows : q.Follows ts := h.follows Progress.follows_nil
  have hprevious : q.previous ≠ none := by
    rw [hfollows.previous, Ne, List.getLast?_eq_none_iff]
    exact hne
  obtain ⟨hdue, hopened⟩ := (Progress.finish_eq_ok_iff hprevious).mp hfinish
  obtain ⟨us, es, rfl, hus, hes⟩ := hfollows.expression hdue
  rcases hus.join hes with ⟨_, hjoined⟩ | ⟨m, _, _, hm, _⟩
  · exact hjoined
  · rw [hopened] at hm
    cases hm

/-- The check is a run over at least three tokens that may end there. -/
theorem checkExpression_eq_ok_iff_run {ts : List Token} :
    checkExpression ts = .ok () ↔
      minTokens ≤ ts.length ∧ ∃ q, Progress.Run {} ts q ∧ q.finish = .ok () := by
  unfold checkExpression
  by_cases hshort : ts.length < minTokens
  · rw [if_pos hshort]
    constructor
    · intro h
      cases h
    · intro h
      omega
  · rw [if_neg hshort, bind_eq_ok_iff]
    simp only [Progress.foldlM_step_eq_ok_iff]
    constructor
    · intro h
      exact ⟨by omega, h⟩
    · intro h
      exact h.2

/-- The lists that the check accepts are the expressions of the grammar, a
lone operand excepted. -/
theorem checkExpression_eq_ok_iff {ts : List Token} :
    checkExpression ts = .ok () ↔ IsExpression ts ∧ ts.length ≠ 1 := by
  rw [checkExpression_eq_ok_iff_run, minTokens]
  constructor
  · intro h
    obtain ⟨hlong, q, hrun, hfinish⟩ := h
    have hne : ts ≠ [] := List.ne_nil_of_length_pos (by omega)
    exact ⟨hrun.isExpression hne hfinish, by omega⟩
  · intro h
    obtain ⟨hexpr, hne⟩ := h
    obtain ⟨q, hrun, hopened, hprevious, hdue⟩ := hexpr.run (p := {}) rfl
    refine ⟨?_, q, hrun, (Progress.finish_eq_ok_iff hprevious).mpr ⟨hdue, hopened⟩⟩
    rcases hexpr.length_eq_one_or_three_le with hone | hlong
    · exact absurd hone hne
    · exact hlong

/-- **What the check accepts**: the lists of tokens that the grammar derives
and that are more than a lone operand. Every other list is an invalid
expression. -/
theorem checkExpression_verdict (ts : List Token) :
    ((checkExpression ts).mapError Error.invalidExpression = .ok () ↔
      IsExpression ts ∧ ¬ ∃ text, ts = [.number text]) ∧
    ((∃ reason, (checkExpression ts).mapError Error.invalidExpression
        = .error (.invalidExpression reason)) ↔
      ¬ (IsExpression ts ∧ ¬ ∃ text, ts = [.number text])) := by
  have haccepted : checkExpression ts = .ok () ↔
      IsExpression ts ∧ ¬ ∃ text, ts = [.number text] := by
    rw [checkExpression_eq_ok_iff]
    exact and_congr_right fun h => not_congr h.length_eq_one_iff
  rw [← haccepted]
  refine ⟨mapError_eq_ok_iff, ?_⟩
  simp only [mapError_eq_error_iff]
  cases checkExpression ts with
  | error reason => simp
  | ok _ => simp

end Calculator
