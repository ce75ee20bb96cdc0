import Calculator.Text.Line
import Calculator.Token.Scan
import Calculator.Proofs.Run

/-!
# A scan reads the first line

A line feed ends the scan wherever it stands: in front, behind a symbol, or
behind an operand, whose run of numerals it breaks off. So a scan gives the
same for all texts with one first line, the positions in its errors included.
-/

namespace Calculator.Token

/-- What follows a line feed is not scanned, whatever was read before it. -/
theorem scanChars_append_newline (before : Bool) (position : Nat)
    (cs rest : List Char) :
    scanChars before position (cs ++ '\n' :: rest)
      = scanChars before position cs := by
  fun_induction scanChars before position cs with
  | case1 before position => exact scanChars_newline before position rest
  | case2 before position c cs hc =>
      rw [beq_iff_eq.mp hc]
      exact scanChars_newline before position _
  | case3 before position c cs hc s hsymbol ih =>
      rw [List.cons_append, scanChars_symbol hsymbol, ih]
  | case4 before position c cs hline hsymbol hc run text ih =>
      -- the line feed breaks off the run, so run and rest are as without it
      have hnumeral : isNumeral '\n' = false := rfl
      have hc : c = '-' ∨ isNumeral c = true := by simpa using hc
      rw [List.cons_append, scanChars_number hsymbol hc,
        takeWhile_append_cons hnumeral, dropWhile_append_cons hnumeral, ih]
  | case5 before position c cs hline hsymbol hc =>
      have hline : c ≠ '\n' := by simpa using hline
      obtain ⟨hminus, hnumeral⟩ : c ≠ '-' ∧ isNumeral c = false := by
        simpa using hc
      rw [List.cons_append, scanChars_foreign hsymbol hline hminus hnumeral]

/-- A scan gives what it gives for the first line alone. -/
theorem scanChars_firstLineChars (before : Bool) (position : Nat)
    (cs : List Char) :
    scanChars before position (Text.firstLineChars cs)
      = scanChars before position cs := by
  rcases Text.eq_firstLineChars_or_newline cs with h | ⟨rest, h⟩
  · rw [← h]
  · rw [h, scanChars_append_newline, Text.firstLineChars_append_newline,
      Text.firstLineChars_firstLineChars]

theorem scan_firstLine (s : String) : scan (Text.firstLine s) = scan s := by
  rw [scan, Text.toList_firstLine, scanChars_firstLineChars]
  rfl

end Calculator.Token
