import Calculator.Decimal.Literal
import Calculator.Proofs.Run

/-!
# Which operands are numbers

An operand of an expression is made of digits and points behind an optional
sign. It is read as a number exactly if it has a digit and no second point;
no other form of literal can be built from these characters.
-/

namespace Calculator

/-! ## Literals of expressions -/

/-- The characters are digits and points. -/
def Numerals (cs : List Char) : Prop :=
  ∀ c ∈ cs, c.isDigit = true ∨ c = '.'

/-- At most one point, and at least one digit. -/
def SpellsNumber (cs : List Char) : Prop :=
  cs.count '.' ≤ 1 ∧ ∃ c ∈ cs, c.isDigit = true

/-- A literal: digits with at most one point among or beside them, behind a
minus sign or none. -/
def IsLiteral (cs : List Char) : Prop :=
  ∃ sign body, cs = sign ++ body ∧ (sign = [] ∨ sign = ['-']) ∧
    Numerals body ∧ SpellsNumber body

namespace Literal

/-! ## Digits and points -/

theorem digits_or_point {cs : List Char} (h : Numerals cs) :
    (∀ c ∈ cs, c.isDigit = true) ∨
      ∃ whole rest, cs = whole ++ '.' :: rest ∧
        (∀ c ∈ whole, c.isDigit = true) ∧ Numerals rest := by
  induction cs with
  | nil => exact .inl (by simp)
  | cons c cs ih =>
      have hcs : Numerals cs := fun d hd => h d (List.mem_cons_of_mem c hd)
      rcases h c (by simp) with hdigit | rfl
      · rcases ih hcs with hall | ⟨whole, rest, rfl, hwhole, hrest⟩
        · exact .inl (by simpa [hdigit] using hall)
        · exact .inr ⟨c :: whole, rest, rfl, by simpa [hdigit] using hwhole, hrest⟩
      · exact .inr ⟨[], cs, rfl, by simp, hcs⟩

theorem count_point_digits {cs : List Char} (h : ∀ c ∈ cs, c.isDigit = true) :
    cs.count '.' = 0 := by
  apply List.count_eq_zero_of_not_mem
  intro hmem
  have := h '.' hmem
  revert this
  decide

theorem exists_digit_iff {cs : List Char} (h : ∀ c ∈ cs, c.isDigit = true) :
    (∃ c ∈ cs, c.isDigit = true) ↔ cs ≠ [] := by
  constructor
  · intro h
    obtain ⟨c, hc, _⟩ := h
    exact List.ne_nil_of_mem hc
  · intro hne
    obtain ⟨c, hc⟩ := List.exists_mem_of_ne_nil cs hne
    exact ⟨c, hc, h c hc⟩

/-! ## The unsigned number -/

section Unsigned

variable {whole fraction : List Char}
  (hwhole : ∀ c ∈ whole, c.isDigit = true)
  (hfraction : ∀ c ∈ fraction, c.isDigit = true)

include hwhole in
theorem unsigned?_digits :
    unsigned? whole =
      if whole = [] then none else some (Nat.ofDigitChars 10 whole 0, 0) := by
  have htake : whole.takeWhile Char.isDigit = whole :=
    takeWhile_whole hwhole
  have hdrop : whole.dropWhile Char.isDigit = [] :=
    dropWhile_whole hwhole
  rw [unsigned?, htake, hdrop]
  cases whole with
  | nil => rfl
  | cons c cs => simp [splitFraction, exponent?]

include hwhole hfraction in
theorem unsigned?_point :
    unsigned? (whole ++ '.' :: fraction) =
      if whole = [] ∧ fraction = [] then none
      else some (Nat.ofDigitChars 10 (whole ++ fraction) 0,
        -(fraction.length : Int)) := by
  have htake : (whole ++ '.' :: fraction).takeWhile Char.isDigit = whole :=
    takeWhile_run hwhole (by simp)
  have hdrop : (whole ++ '.' :: fraction).dropWhile Char.isDigit
      = '.' :: fraction := dropWhile_run hwhole (by simp)
  have htake' : fraction.takeWhile Char.isDigit = fraction :=
    takeWhile_whole hfraction
  have hdrop' : fraction.dropWhile Char.isDigit = [] :=
    dropWhile_whole hfraction
  rw [unsigned?, htake, hdrop, splitFraction, htake', hdrop']
  simp [exponent?]

include hwhole hfraction in
/-- A second point ends the fraction, and it does not begin an exponent. -/
theorem unsigned?_two_points (rest : List Char) :
    unsigned? (whole ++ '.' :: (fraction ++ '.' :: rest)) = none := by
  have htake : (whole ++ '.' :: (fraction ++ '.' :: rest)).takeWhile Char.isDigit
      = whole := takeWhile_run hwhole (by simp)
  have hdrop : (whole ++ '.' :: (fraction ++ '.' :: rest)).dropWhile Char.isDigit
      = '.' :: (fraction ++ '.' :: rest) := dropWhile_run hwhole (by simp)
  have htake' : (fraction ++ '.' :: rest).takeWhile Char.isDigit = fraction :=
    takeWhile_run hfraction (by simp)
  have hdrop' : (fraction ++ '.' :: rest).dropWhile Char.isDigit
      = '.' :: rest := dropWhile_run hfraction (by simp)
  have hexponent : exponent? ('.' :: rest) = none := by simp [exponent?]
  rw [unsigned?, htake, hdrop, splitFraction, htake', hdrop']
  simp [hexponent]

end Unsigned

theorem exists_digit_point_iff {whole fraction : List Char}
    (hwhole : ∀ c ∈ whole, c.isDigit = true)
    (hfraction : ∀ c ∈ fraction, c.isDigit = true) :
    (∃ c ∈ whole ++ '.' :: fraction, c.isDigit = true) ↔
      ¬ (whole = [] ∧ fraction = []) := by
  have hpoint : '.'.isDigit = false := by decide
  have hsplit : (∃ c ∈ whole ++ '.' :: fraction, c.isDigit = true) ↔
      (∃ c ∈ whole, c.isDigit = true) ∨ ∃ c ∈ fraction, c.isDigit = true := by
    simp [hpoint, or_and_right, exists_or]
  rw [hsplit, exists_digit_iff hwhole, exists_digit_iff hfraction,
    Classical.not_and_iff_not_or_not]

/-- Digits and points spell a number if there is a digit and no second
point. -/
theorem unsigned?_eq_none_iff {cs : List Char} (h : Numerals cs) :
    unsigned? cs = none ↔ ¬ SpellsNumber cs := by
  rcases digits_or_point h with hall | ⟨whole, rest, rfl, hwhole, hrest⟩
  · rw [unsigned?_digits hall, SpellsNumber, count_point_digits hall,
      exists_digit_iff hall]
    simp
  · rcases digits_or_point hrest with
      hfraction | ⟨fraction, rest, rfl, hfraction, _⟩
    · have hcount : (whole ++ '.' :: rest).count '.' = 1 := by
        simp [count_point_digits hwhole, count_point_digits hfraction]
      rw [unsigned?_point hwhole hfraction, SpellsNumber, hcount,
        exists_digit_point_iff hwhole hfraction]
      simp
    · have hcount : 2 ≤ (whole ++ '.' :: (fraction ++ '.' :: rest)).count '.' := by
        simp
        omega
      rw [unsigned?_two_points hwhole hfraction, SpellsNumber]
      constructor
      · intro _ hspells
        omega
      · intro _
        rfl

/-! ## Sign and words -/

theorem splitSign_numerals {cs : List Char} (h : Numerals cs) :
    splitSign cs = (false, cs) := by
  cases cs with
  | nil => rfl
  | cons c cs =>
      have hc := h c (by simp)
      unfold splitSign
      split
      · rename_i heq
        cases heq
        exact absurd hc (by decide)
      · rename_i heq
        cases heq
        exact absurd hc (by decide)
      · rfl

theorem toLower_numeral {c : Char} (h : c.isDigit = true ∨ c = '.') :
    c.toLower = c := by
  rcases h with h | rfl
  · have hle : c.val ≤ '9'.val := by
      simp only [Char.isDigit, Bool.and_eq_true, decide_eq_true_eq] at h
      exact h.2
    have hupper : ¬ (c.val ≥ 'A'.val ∧ c.val ≤ 'Z'.val) := by
      intro h
      obtain ⟨hge, _⟩ := h
      exact absurd (UInt32.le_trans hge hle) (by decide)
    exact dif_neg hupper
  · rfl

/-- Digits and points have no upper case. -/
theorem map_toLower_numerals {cs : List Char} (h : Numerals cs) :
    cs.map Char.toLower = cs := by
  have heq : ∀ c ∈ cs, c.toLower = id c := fun c hc => toLower_numeral (h c hc)
  rw [List.map_congr_left heq, List.map_id]

/-- Digits and points spell no word. -/
theorem numerals_ne_cons {cs ds : List Char} {d : Char} (h : Numerals cs)
    (hd : ¬ (d.isDigit = true ∨ d = '.')) : cs ≠ d :: ds := by
  rintro rfl
  exact hd (h d (by simp))

/-- Behind a sign or none, digits and points are read as a number or not at
all. -/
theorem ofChars?_sign {sign cs : List Char} (hsign : sign = [] ∨ sign = ['-'])
    (h : Numerals cs) :
    ofChars? (sign ++ cs) = (unsigned? cs).map fun n =>
      .number (decide (sign = ['-'])) n.1 n.2 := by
  have hsplit : splitSign (sign ++ cs) = (decide (sign = ['-']), cs) := by
    rcases hsign with rfl | rfl
    · exact splitSign_numerals h
    · rfl
  have hi : ∀ ds, cs ≠ 'i' :: ds := fun ds => numerals_ne_cons h (by decide)
  have hn : ∀ ds, cs ≠ 'n' :: ds := fun ds => numerals_ne_cons h (by decide)
  rw [ofChars?, hsplit]
  cases hnumber : unsigned? cs with
  | none => simp [hnumber, map_toLower_numerals h, hi, hn]
  | some n => simp [hnumber]

theorem ofChars?_eq_none_iff {sign cs : List Char}
    (hsign : sign = [] ∨ sign = ['-']) (h : Numerals cs) :
    ofChars? (sign ++ cs) = none ↔ ¬ SpellsNumber cs := by
  rw [ofChars?_sign hsign h, Option.map_eq_none_iff, unsigned?_eq_none_iff h]

end Literal

/-- A literal is read as a number. -/
theorem IsLiteral.ofChars?_ne_none {cs : List Char} (h : IsLiteral cs) :
    Literal.ofChars? cs ≠ none := by
  obtain ⟨sign, body, rfl, hsign, hbody, hspells⟩ := h
  rw [Ne, Literal.ofChars?_eq_none_iff hsign hbody]
  exact fun hnot => hnot hspells

end Calculator
