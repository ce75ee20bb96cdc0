import Calculator.Proofs.Grammar.Accepted
import Calculator.Proofs.Grammar.Balanced

/-!
# The reported token is the first fault

Whatever the check has read without complaint can be completed to an expression:
the operand that is due, the parentheses still open, and one more sum. So the
token it refuses is the first with which no expression can begin, and where it
refuses none but the end, more tokens would have helped. The parentheses still
open have balanced tokens between them, hence are those that are never closed.
-/

namespace Calculator

/-- `Viable ts`: the tokens are the beginning of a list that the check accepts. -/
def Viable (ts : List Token) : Prop :=
  ∃ more, checkExpression (ts ++ more) = .ok ()

namespace Progress

/-! ## Completions -/

/-- `Complete p`: some tokens were read, and no operand is due. -/
structure Complete (p : Progress) : Prop where
  previous : p.previous ≠ none
  due : Token.operandDue p.previous = false

/-- The operand that is due may come. -/
theorem exists_run_operand (p : Progress) :
    ∃ more q, Run p more q ∧ q.Complete := by
  cases hdue : Token.operandDue p.previous with
  | true => exact ⟨[.number "0"], _, .single (.number "0" hdue), by simp, rfl⟩
  | false =>
      refine ⟨[], p, .nil, fun hnone => ?_, hdue⟩
      rw [hnone] at hdue
      cases hdue

/-- The parentheses still open may be closed, one after the other. -/
theorem Complete.exists_run_close {p : Progress} (h : p.Complete) :
    ∃ more q, Run p more q ∧ q.Complete ∧ q.opened = [] := by
  obtain ⟨position, previous, opened⟩ := p
  induction opened generalizing position previous with
  | nil => exact ⟨[], _, .nil, h, rfl⟩
  | cons i outer ih =>
      obtain ⟨more, q, hrun, hq, hopened⟩ :=
        ih (position + 1) (some .rpar) ⟨by simp, rfl⟩
      exact ⟨.rpar :: more, q, .cons (.rpar h.due rfl) hrun, hq, hopened⟩

theorem Complete.finish_eq {p : Progress} (h : p.Complete) (hopened : p.opened = []) :
    p.finish = .ok () :=
  (finish_eq_ok_iff h.previous).mpr ⟨h.due, hopened⟩

/-- What was read without complaint can be completed. -/
theorem Run.viable {p : Progress} {ts : List Token} (h : Run {} ts p) : Viable ts := by
  obtain ⟨operand, p₁, h₁, hp₁⟩ := p.exists_run_operand
  obtain ⟨closing, p₂, h₂, hp₂, hopened⟩ := hp₁.exists_run_close
  -- one more sum, so that the list is no lone operand
  have h₃ : Run p₂ [.op .add, .number "0"]
      ⟨p₂.position + 1 + 1, some (.number "0"), p₂.opened⟩ :=
    .cons (.op .add hp₂.due) (.single (.number "0" rfl))
  have hrun := h.append (h₁.append (h₂.append h₃))
  refine ⟨operand ++ (closing ++ [.op .add, .number "0"]), ?_⟩
  refine checkExpression_eq_ok_iff.mpr ⟨hrun.isExpression (by simp) ?_, ?_⟩
  · exact Complete.finish_eq ⟨by simp, rfl⟩ hopened
  · simp
    omega

/-- What begins with a refused token cannot be completed. -/
theorem not_viable {p : Progress} {before : List Token} {t : Token} {reason : Malformed}
    (hbefore : before.foldlM step {} = .ok p) (ht : p.step t = .error reason) :
    ¬ Viable (before ++ [t]) := by
  intro h
  obtain ⟨more, hcheck⟩ := h
  obtain ⟨_, q, hrun, _⟩ := checkExpression_eq_ok_iff_run.mp hcheck
  have hfold := foldlM_step_eq_ok_iff.mpr hrun
  have hfail : (before ++ [t] ++ more).foldlM step {} = .error reason :=
    foldlM_eq_error_iff.mpr ⟨before, t, more, p, by simp, hbefore, ht⟩
  rw [hfail] at hfold
  cases hfold

/-! ## Reasons -/

/-- A token is refused at its own position. -/
theorem step_eq_error {p : Progress} {t : Token} {reason : Malformed}
    (h : p.step t = .error reason) : ∃ fault, reason = .atToken p.position fault := by
  unfold step at h
  split at h
  · split at h
    · exact ⟨_, (Except.error.inj h).symm⟩
    · cases h
    · cases h
    · cases h
  · exact ⟨_, (Except.error.inj h).symm⟩

/-- The end is refused for what stands last or for the innermost parenthesis
still open. -/
theorem finish_eq_error {p : Progress} {reason : Malformed}
    (h : p.finish = .error reason) :
    (∃ last, reason = .unexpectedEnd last) ∨
      ∃ i outer, p.opened = i :: outer ∧ reason = .unclosedGroup i := by
  unfold finish at h
  split at h
  · exact .inl ⟨_, (Except.error.inj h).symm⟩
  · exact .inl ⟨_, (Except.error.inj h).symm⟩
  · rename_i i outer hopened _ _
    exact .inr ⟨i, outer, hopened, (Except.error.inj h).symm⟩
  · cases h

end Progress

/-! ## The parentheses still open -/

/-- `Nests positions ts`: the tokens are balanced but for the parentheses at
these positions, the innermost of which comes first. -/
inductive Nests : List Nat → List Token → Prop where
  | balanced {ts : List Token} : Balanced ts → Nests [] ts
  | opened {positions : List Nat} {ts us : List Token} :
      Nests positions ts → Balanced us →
        Nests (ts.length :: positions) (ts ++ .lpar :: us)

theorem Nests.append {positions : List Nat} {ts us : List Token}
    (h : Nests positions ts) (hus : Balanced us) : Nests positions (ts ++ us) := by
  cases h with
  | balanced hts => exact .balanced (hts.append hus)
  | opened h hinner => simpa using h.opened (hinner.append hus)

namespace Progress

/-- What `p` keeps of the tokens `ts` that were read: their number, and the
parentheses of theirs that are still open. -/
structure Tracks (p : Progress) (ts : List Token) : Prop where
  position : p.position = ts.length
  opened : Nests p.opened ts

theorem tracks_nil : Tracks {} [] where
  position := rfl
  opened := .balanced .nil

theorem Step.tracks {p q : Progress} {t : Token} {ts : List Token}
    (h : Step p t q) (hp : p.Tracks ts) : q.Tracks (ts ++ [t]) := by
  cases h with
  | number text due =>
      exact ⟨by simp [hp.position], hp.opened.append (.single (by simp) (by simp))⟩
  | op o due =>
      exact ⟨by simp [hp.position], hp.opened.append (.single (by simp) (by simp))⟩
  | lpar due =>
      refine ⟨by simp [hp.position], ?_⟩
      rw [hp.position]
      exact hp.opened.opened .nil
  | @rpar i outer due opened =>
      refine ⟨by simp [hp.position], ?_⟩
      have hnests := hp.opened
      rw [opened] at hnests
      cases hnests with
      | opened houter hinner => simpa using houter.append hinner.group

theorem Run.tracks {p q : Progress} {ts us : List Token}
    (h : Run p us q) (hp : p.Tracks ts) : q.Tracks (ts ++ us) := by
  induction h generalizing ts with
  | nil => simpa using hp
  | cons hs _ ih => simpa using ih (hs.tracks hp)

end Progress

/-- The innermost parenthesis still open is the last that is never closed. -/
theorem Nests.last_neverClosed {i : Nat} {outer : List Nat} {ts : List Token}
    (h : Nests (i :: outer) ts) :
    NeverClosed ts i ∧ ∀ j, NeverClosed ts j → j ≤ i := by
  cases h with
  | opened _ hinner =>
      exact ⟨hinner.neverClosed, fun j => hinner.le_of_neverClosed⟩

/-! ## The first fault -/

/-- **The check reports the first fault.** Of three tokens and more that it
refuses, it refuses one token, although what stands before it could have been
completed, and with it nothing can; or it refuses only the end, and all the
tokens could have been completed. A parenthesis reported as open is the last
that is never closed. -/
theorem checkExpression_first_fault {ts : List Token} {reason : Malformed}
    (hlong : 3 ≤ ts.length) (h : checkExpression ts = .error reason) :
    (∃ i fault, reason = .atToken i fault ∧ i < ts.length ∧
      Viable (ts.take i) ∧ ¬ Viable (ts.take (i + 1))) ∨
    (∃ last, reason = .unexpectedEnd last ∧ Viable ts) ∨
    (∃ i, reason = .unclosedGroup i ∧ Viable ts ∧
      NeverClosed ts i ∧ ∀ j, NeverClosed ts j → j ≤ i) := by
  have hfold : ts.foldlM Progress.step {} >>= Progress.finish = .error reason := by
    rwa [checkExpression, minTokens, if_neg (Nat.not_lt.mpr hlong)] at h
  rcases bind_eq_error_iff.mp hfold with hstep | ⟨p, hread, hfinish⟩
  · obtain ⟨before, t, after, p, rfl, hbefore, ht⟩ := foldlM_eq_error_iff.mp hstep
    obtain ⟨fault, rfl⟩ := Progress.step_eq_error ht
    have hrun := Progress.foldlM_step_eq_ok_iff.mp hbefore
    have hposition : p.position = before.length := by
      simpa using (hrun.tracks Progress.tracks_nil).position
    refine .inl ⟨p.position, fault, rfl, ?_, ?_, ?_⟩
    · simp [hposition]
    · rw [hposition, List.take_left]
      exact hrun.viable
    · have htake : (before ++ t :: after).take (p.position + 1) = before ++ [t] := by
        rw [hposition, List.take_append, List.take_of_length_le (Nat.le_succ _)]
        simp
      rw [htake]
      exact Progress.not_viable hbefore ht
  · have hrun := Progress.foldlM_step_eq_ok_iff.mp hread
    rcases Progress.finish_eq_error hfinish with ⟨last, rfl⟩ | ⟨i, outer, hopened, rfl⟩
    · exact .inr (.inl ⟨last, rfl, hrun.viable⟩)
    · have hnests := (hrun.tracks Progress.tracks_nil).opened
      rw [hopened] at hnests
      exact .inr (.inr ⟨i, rfl, hrun.viable, hnests.last_neverClosed⟩)

/-- Of the two parentheses of `(1+(2)` the first is left open, and a third one
would close it. -/
theorem checkExpression_first_fault_open :
    let ts : List Token := [.lpar, .number "1", .op .add, .lpar, .number "2", .rpar]
    (3 ≤ ts.length ∧ checkExpression ts = .error (.unclosedGroup 0)) ∧
      Viable ts ∧ NeverClosed ts 0 ∧ ¬ NeverClosed ts 3 := by
  intro ts
  have hcheck : checkExpression ts = .error (.unclosedGroup 0) := rfl
  rcases checkExpression_first_fault (by decide : 3 ≤ ts.length) hcheck with
    ⟨_, _, hreason, _⟩ | ⟨_, hreason, _⟩ | ⟨i, hreason, hviable, hnever, hlast⟩
  · cases hreason
  · cases hreason
  · cases hreason
    exact ⟨⟨by decide, hcheck⟩, hviable, hnever, fun h => absurd (hlast 3 h) (by decide)⟩

end Calculator
