import Calculator.Error

/-!
# Reading tokens from a line

Symbols are one character each, operands are runs of digits and points. The
character `-` is the one whose meaning hangs on what came before: after an
operand it is the operator, anywhere else (even after a closing parenthesis)
it begins an operand. A run may hold several points, and a sign may stand
without digits; such operands are refused only when they are computed.

A line feed ends the scan, and what follows it is not looked at. The scan fails
on a foreign character before that, and names its position: the number of bytes,
not of characters, that precede it.
-/

namespace Calculator.Token

/-- A character of the body of an operand. -/
def isNumeral (c : Char) : Bool :=
  c.isDigit || c == '.'

/-- The symbol that a character stands for, after an operand or not. -/
def symbolAt? (afterNumber : Bool) (c : Char) : Option Symbol :=
  if c == '-' && !afterNumber then none else Symbol.ofChar? c

/-- The tokens of the characters from byte `position` on, up to a line feed;
`afterNumber` tells whether the token before was an operand. -/
def scanChars (afterNumber : Bool) (position : Nat) :
    List Char → Except Error (List Token)
  | [] => .ok []
  | c :: cs =>
    if c == '\n' then
      .ok []
    else
      match symbolAt? afterNumber c with
      | some s => (symbol s :: ·) <$> scanChars false (position + c.utf8Size) cs
      | none =>
        if c == '-' || isNumeral c then
          let run := cs.takeWhile isNumeral
          let text := String.ofList (c :: run)
          (number text :: ·) <$>
            scanChars true (position + text.utf8ByteSize) (cs.dropWhile isNumeral)
        else
          .error (.unexpectedChar c position)
termination_by cs => cs.length
decreasing_by
  · simp
  · have := (List.dropWhile_sublist isNumeral (l := cs)).length_le
    simp only [List.length_cons]
    omega

/-! ## One token at a time -/

@[simp] theorem scanChars_nil (afterNumber : Bool) (position : Nat) :
    scanChars afterNumber position [] = .ok [] := by
  rw [scanChars]

/-- The characters after a line feed are not read. -/
@[simp] theorem scanChars_newline (afterNumber : Bool) (position : Nat)
    (cs : List Char) : scanChars afterNumber position ('\n' :: cs) = .ok [] := by
  rw [scanChars]
  rfl

theorem scanChars_symbol {afterNumber : Bool} {c : Char} {s : Symbol}
    (h : symbolAt? afterNumber c = some s) (position : Nat) (cs : List Char) :
    scanChars afterNumber position (c :: cs)
      = (symbol s :: ·) <$> scanChars false (position + c.utf8Size) cs := by
  have hline : c ≠ '\n' := by
    rintro rfl
    cases afterNumber <;> cases h
  rw [scanChars, h]
  simp [hline]

theorem scanChars_number {afterNumber : Bool} {c : Char}
    (hs : symbolAt? afterNumber c = none) (hc : c = '-' ∨ isNumeral c)
    (position : Nat) (cs : List Char) :
    scanChars afterNumber position (c :: cs)
      = (number (String.ofList (c :: cs.takeWhile isNumeral)) :: ·) <$>
        scanChars true
          (position + (String.ofList (c :: cs.takeWhile isNumeral)).utf8ByteSize)
          (cs.dropWhile isNumeral) := by
  have hline : c ≠ '\n' := by
    rintro rfl
    exact absurd hc (by decide)
  rw [scanChars, hs]
  simp [hline, hc]

theorem scanChars_foreign {afterNumber : Bool} {c : Char}
    (hs : symbolAt? afterNumber c = none) (hline : c ≠ '\n') (hm : c ≠ '-')
    (hn : isNumeral c = false) (position : Nat) (cs : List Char) :
    scanChars afterNumber position (c :: cs)
      = .error (.unexpectedChar c position) := by
  rw [scanChars, hs]
  simp [hline, hm, hn]

/-! ## A text -/

/-- The tokens of the first line of a text. -/
def scan (s : String) : Except Error (List Token) :=
  scanChars false 0 s.toList

end Calculator.Token
