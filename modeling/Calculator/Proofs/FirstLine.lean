import Calculator.Proofs.History
import Calculator.Proofs.Token.Line

/-!
# Only the first line counts

Scan, value and trace of an input do not change with what is written behind a
line feed. The window cuts the entry at its first line feed on its own and
takes the spaces off both ends before it evaluates, so two entries that differ
only there have one outcome. Without such spaces this is the outcome of the
whole entry: both ways to find the first line agree.
-/

namespace Calculator

/-! ## Texts with one first line -/

namespace Text

theorem firstLine_append_newline (s rest : String) :
    firstLine (s ++ "\n" ++ rest) = firstLine s := by
  have hchars : (s ++ "\n" ++ rest).toList = s.toList ++ '\n' :: rest.toList := by
    simp
  rw [firstLine, hchars, firstLineChars_append_newline, firstLine]

/-- Nothing is taken off characters that have no space at either end. -/
theorem trimChars_eq_self {cs : List Char} (hfront : cs.head? ≠ some ' ')
    (hback : cs.getLast? ≠ some ' ') : trimChars cs = cs := by
  have hfirst : cs.dropWhile (· == ' ') = cs := by
    apply dropWhile_eq_self
    intro c hc
    simpa using fun h : c = ' ' => hfront (h ▸ hc)
  rw [trimChars, hfirst, trimEnd_eq_self hback]

theorem trimSpaces_eq_self {s : String} (hfront : s.toList.head? ≠ some ' ')
    (hback : s.toList.getLast? ≠ some ' ') : trimSpaces s = s := by
  rw [trimSpaces, trimChars_eq_self hfront hback, String.ofList_toList]

end Text

/-! ## Inputs -/

section Inputs

variable {s s' : String}

theorem readExpression_eq_of_scan_eq (h : Token.scan s = Token.scan s') :
    readExpression s = readExpression s' := by
  rw [readExpression, h, readExpression]

theorem evaluate_eq_of_scan_eq (h : Token.scan s = Token.scan s') :
    evaluate s = evaluate s' := by
  rw [evaluate, readExpression_eq_of_scan_eq h, evaluate]

theorem analyse_eq_of_scan_eq (h : Token.scan s = Token.scan s') :
    analyse s = analyse s' := by
  rw [analyse, readExpression_eq_of_scan_eq h, analyse]

end Inputs

theorem scan_append_newline (s rest : String) :
    Token.scan (s ++ "\n" ++ rest) = Token.scan s := by
  rw [← Token.scan_firstLine, Text.firstLine_append_newline, Token.scan_firstLine]

/-- A product that is entered in several ways further on. -/
theorem analyse_product : analyse "4*5" = .ok ⟨"4 * 5", "4 5 *", 20⟩ := by
  have hscan : Token.scan "4*5" = .ok [.number "4", .op .mul, .number "5"] :=
    Token.scan_eq_ok_iff.mpr (by decide +kernel)
  have hrpn : Rpn.value [.number "4", .number "5", .op .mul] = .ok 20 :=
    toOption_eq_some_iff.mp (by decide +kernel)
  exact analyse_eq_ok_iff.mpr
    ⟨_, 20, readExpression_eq_ok_iff.mpr ⟨hscan, rfl⟩, hrpn, by decide +kernel⟩

/-! ## Entries -/

namespace Session

/-- Entries with one text to evaluate have one outcome, which is also logged
alike. -/
theorem evaluate_setEntry {entry entry' : String}
    (h : Text.trimSpaces (Text.firstLine entry)
      = Text.trimSpaces (Text.firstLine entry')) (s : Session) :
    (s.setEntry entry').evaluate
      = ((s.setEntry entry).evaluate.1.setEntry entry',
          (s.setEntry entry).evaluate.2) := by
  have htext : (s.setEntry entry').expressionText
      = (s.setEntry entry).expressionText := h.symm
  unfold evaluate
  rw [htext]
  cases analyse (s.setEntry entry).expressionText <;> rfl

/-- **Only the first line counts**: what follows a line feed changes neither
tokens nor value nor trace of an input, nor any error. Sessions that differ
only in the entry still do so after an evaluation, with the same line of the
log, if the first lines of the entries are the same up to spaces at the ends.
If the first line has no space at either end, the outcome is that of the whole
entry. -/
theorem first_line_decides :
    (∀ s rest : String,
      Token.scan (s ++ "\n" ++ rest) = Token.scan s ∧
      Calculator.evaluate (s ++ "\n" ++ rest) = Calculator.evaluate s ∧
      analyse (s ++ "\n" ++ rest) = analyse s) ∧
    (∀ (s : Session) (entry entry' : String),
      Text.trimSpaces (Text.firstLine entry)
        = Text.trimSpaces (Text.firstLine entry') →
      let after := (s.setEntry entry).perform (.press .equals)
      let after' := (s.setEntry entry').perform (.press .equals)
      after'.1 = after.1.setEntry entry' ∧ after'.2 = after.2) ∧
    (∀ s : Session,
      (Text.firstLine s.entry).toList.head? ≠ some ' ' →
      (Text.firstLine s.entry).toList.getLast? ≠ some ' ' →
      (s.perform (.press .equals)).1 = s.after (.evaluated (analyse s.entry))) := by
  refine ⟨fun s rest => ?_, fun s entry entry' h => ?_, fun s hfront hback => ?_⟩
  · have hscan := scan_append_newline s rest
    exact ⟨hscan, evaluate_eq_of_scan_eq hscan, analyse_eq_of_scan_eq hscan⟩
  · have hevaluate := evaluate_setEntry h s
    simp only [perform_equals, hevaluate]
    exact ⟨trivial, trivial⟩
  · have hline : analyse s.expressionText = analyse s.entry := by
      rw [expressionText, Text.trimSpaces_eq_self hfront hback]
      exact analyse_eq_of_scan_eq (Token.scan_firstLine s.entry)
    rw [← hline, perform_equals]
    exact s.evaluate_fst

/-- Spaces around the product and a second line change neither the outcome nor
the log. -/
theorem first_line_decides_spaces :
    (Text.trimSpaces (Text.firstLine "4*5") = Text.trimSpaces (Text.firstLine " 4*5 \n&") ∧
      (Text.firstLine "4*5\n&").toList.head? ≠ some ' ' ∧
      (Text.firstLine "4*5\n&").toList.getLast? ≠ some ' ') ∧
    analyse ("4*5" ++ "\n" ++ "&") = .ok ⟨"4 * 5", "4 5 *", 20⟩ ∧
    ((({} : Session).setEntry " 4*5 \n&").perform (.press .equals)).2
      = ((({} : Session).setEntry "4*5").perform (.press .equals)).2 ∧
    ((({} : Session).setEntry "4*5\n&").perform (.press .equals)).1.result = "20" := by
  have hsame : Text.trimSpaces (Text.firstLine "4*5")
      = Text.trimSpaces (Text.firstLine " 4*5 \n&") := by decide +kernel
  have hfront : (Text.firstLine "4*5\n&").toList.head? ≠ some ' ' := by decide +kernel
  have hback : (Text.firstLine "4*5\n&").toList.getLast? ≠ some ' ' := by decide +kernel
  obtain ⟨hinput, hentry, hwhole⟩ := first_line_decides
  have hlines : analyse ("4*5" ++ "\n" ++ "&") = .ok ⟨"4 * 5", "4 5 *", 20⟩ :=
    (hinput "4*5" "&").2.2.trans analyse_product
  refine ⟨⟨hsame, hfront, hback⟩, hlines, (hentry {} _ _ hsame).2, ?_⟩
  rw [hwhole (({} : Session).setEntry "4*5\n&") hfront hback]
  show (Session.after _ (.evaluated (analyse ("4*5" ++ "\n" ++ "&")))).result = "20"
  rw [hlines]
  decide +kernel

end Session

end Calculator
