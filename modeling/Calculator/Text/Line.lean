/-!
# Lines of text

Only the first line of an input counts, and characters at the ends of a text can
be taken off. Both are stated on the characters of the text.
-/

namespace Calculator.Text

/-! ## The first line -/

/-- The characters before the first line feed, or all of them. -/
def firstLineChars (cs : List Char) : List Char :=
  cs.takeWhile (· != '\n')

/-- The text before its first line feed, or all of it. -/
def firstLine (s : String) : String :=
  String.ofList (firstLineChars s.toList)

@[simp] theorem toList_firstLine (s : String) :
    (firstLine s).toList = firstLineChars s.toList := by
  simp [firstLine]

theorem newline_not_mem_firstLineChars (cs : List Char) :
    '\n' ∉ firstLineChars cs := by
  intro h
  have hall := List.all_takeWhile (p := (· != '\n')) (l := cs)
  simpa using List.all_eq_true.mp hall _ h

theorem firstLineChars_cons {c : Char} (h : c ≠ '\n') (cs : List Char) :
    firstLineChars (c :: cs) = c :: firstLineChars cs := by
  simp [firstLineChars, h]

/-- Characters without a line feed belong to the line they begin. -/
theorem firstLineChars_append {front : List Char} (h : '\n' ∉ front)
    (rest : List Char) :
    firstLineChars (front ++ rest) = front ++ firstLineChars rest := by
  apply List.takeWhile_append_of_pos
  intro c hc
  simpa using fun e : c = '\n' => h (e ▸ hc)

theorem firstLineChars_eq_self {cs : List Char} (h : '\n' ∉ cs) :
    firstLineChars cs = cs := by
  have happend : firstLineChars (cs ++ []) = cs ++ [] := firstLineChars_append h []
  rwa [List.append_nil] at happend

/-- What follows a line feed is not read. -/
theorem firstLineChars_append_newline (cs rest : List Char) :
    firstLineChars (cs ++ '\n' :: rest) = firstLineChars cs := by
  induction cs with
  | nil => simp [firstLineChars]
  | cons c cs ih =>
      by_cases hc : c = '\n'
      · simp [firstLineChars, hc]
      · rw [List.cons_append, firstLineChars_cons hc, firstLineChars_cons hc, ih]

/-- Behind the first line the text is over or a line feed stands. -/
theorem eq_firstLineChars_or_newline (cs : List Char) :
    cs = firstLineChars cs ∨ ∃ rest, cs = firstLineChars cs ++ '\n' :: rest := by
  induction cs with
  | nil => exact .inl rfl
  | cons c cs ih =>
      by_cases hc : c = '\n'
      · exact .inr ⟨cs, by simp [firstLineChars, hc]⟩
      · simpa [firstLineChars, hc] using ih

theorem firstLineChars_firstLineChars (cs : List Char) :
    firstLineChars (firstLineChars cs) = firstLineChars cs :=
  firstLineChars_eq_self (newline_not_mem_firstLineChars cs)

/-! ## Characters at the ends -/

/-- The characters without those at the end that are `c`. -/
def trimEnd (c : Char) (cs : List Char) : List Char :=
  (cs.reverse.dropWhile (· == c)).reverse

theorem trimEnd_append_self (c : Char) (cs : List Char) :
    trimEnd c (cs ++ [c]) = trimEnd c cs := by
  simp [trimEnd]

theorem trimEnd_append_of_ne {c d : Char} (h : d ≠ c) (cs : List Char) :
    trimEnd c (cs ++ [d]) = cs ++ [d] := by
  simp [trimEnd, h]

/-- Nothing is taken off if another character stands at the end. -/
theorem trimEnd_eq_self {c : Char} {cs : List Char} (h : cs.getLast? ≠ some c) :
    trimEnd c cs = cs := by
  rcases List.eq_nil_or_concat cs with rfl | ⟨front, d, rfl⟩
  · rfl
  · rw [List.concat_eq_append] at h ⊢
    exact trimEnd_append_of_ne (by simpa using h) front

/-- The characters without the spaces at either end. -/
def trimChars (cs : List Char) : List Char :=
  trimEnd ' ' (cs.dropWhile (· == ' '))

/-- The text without the spaces at either end; other blanks stay. -/
def trimSpaces (s : String) : String :=
  String.ofList (trimChars s.toList)

end Calculator.Text
