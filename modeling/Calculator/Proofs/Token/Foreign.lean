import Mathlib.Tactic.IntervalCases
import Calculator.Proofs.Outcome
import Calculator.Proofs.Token.Canonical

/-!
# Foreign characters

A scan takes every numeral and every character of a symbol, whatever came
before: if such a character is not a symbol where it stands it begins an
operand. So the only error of a scan is a character of the first line that is
neither, and it is the first one. No such character is passed over either, since
the tokens of a scan are made of numerals and symbols only.

What precedes the first foreign character takes one byte for each character, so
its position can be told in bytes or in characters.
-/

namespace Calculator.Token

/-! ## The alphabet -/

/-- The characters that expressions are made of. -/
def alphabet : List Char :=
  "0123456789.+-*/()".toList

theorem mem_alphabet_of_isDigit {c : Char} (h : c.isDigit = true) : c ∈ alphabet := by
  obtain ⟨hlow, hhigh⟩ : 48 ≤ c.toNat ∧ c.toNat ≤ 57 := Char.isDigit_iff_toNat.mp h
  rw [← Char.ofNat_toNat c]
  interval_cases c.toNat <;> decide

/-- The characters of numbers and of the symbols, and no others. -/
theorem mem_alphabet_iff {c : Char} :
    c ∈ alphabet ↔ isNumeral c = true ∨ ∃ s : Symbol, c = s.char := by
  constructor
  · have hall : alphabet.all (fun d => isNumeral d || (Symbol.ofChar? d).isSome)
        = true := by decide +kernel
    intro h
    rcases Bool.or_eq_true_iff.mp (List.all_eq_true.mp hall c h) with h | h
    · exact .inl h
    · obtain ⟨s, hs⟩ := Option.isSome_iff_exists.mp h
      exact .inr ⟨s, (Symbol.char_ofChar? hs).symm⟩
  · intro h
    rcases h with h | ⟨s, rfl⟩
    · rcases isNumeral_iff.mp h with h | rfl
      · exact mem_alphabet_of_isDigit h
      · decide
    · cases s with
      | op o => cases o <;> decide
      | lpar => decide
      | rpar => decide

theorem IsOperand.mem_alphabet {cs : List Char} (h : IsOperand cs) :
    ∀ c ∈ cs, c ∈ alphabet := by
  obtain ⟨c, run, rfl, hc, hrun⟩ := h
  intro d hd
  rcases List.mem_cons.mp hd with rfl | hd
  · rcases hc with rfl | hc
    · decide
    · exact mem_alphabet_iff.mpr (.inl hc)
  · exact mem_alphabet_iff.mpr (.inl (hrun d hd))

/-! ## Bytes -/

theorem utf8Size_of_mem_alphabet {c : Char} (h : c ∈ alphabet) : c.utf8Size = 1 := by
  have hall : alphabet.all (fun d => d.utf8Size == 1) = true := by decide +kernel
  exact beq_iff_eq.mp (List.all_eq_true.mp hall c h)

/-- A text over the alphabet has as many bytes as characters. -/
theorem utf8ByteSize_of_mem_alphabet {cs : List Char} (h : ∀ c ∈ cs, c ∈ alphabet) :
    (String.ofList cs).utf8ByteSize = cs.length := by
  induction cs with
  | nil => rfl
  | cons c cs ih =>
      rw [String.ofList_cons, String.utf8ByteSize_append, String.utf8ByteSize_singleton,
        utf8Size_of_mem_alphabet (h c (by simp)),
        ih fun d hd => h d (List.mem_cons_of_mem c hd), List.length_cons, Nat.add_comm]

/-! ## The error of a scan -/

/-- A character that stands for nothing where it stands is foreign. -/
theorem not_mem_alphabet {before : Bool} {c : Char}
    (hsymbol : symbolAt? before c = none) (hminus : c ≠ '-')
    (hnumeral : isNumeral c = false) : c ∉ alphabet := by
  intro h
  rcases mem_alphabet_iff.mp h with h | ⟨s, rfl⟩
  · rw [hnumeral] at h
    cases h
  · have hs : symbolAt? before s.char = some s := by
      refine symbolAt?_eq_some_iff.mpr ⟨rfl, fun hsub => ?_⟩
      exact absurd (char_eq_minus_iff.mpr hsub) hminus
    rw [hsymbol] at hs
    cases hs

/-- A scan fails at the first foreign character of the first line, and tells
how many bytes precede it. -/
theorem exists_foreign_of_scanChars {before : Bool} {position : Nat}
    {cs : List Char} {err : Error} (h : scanChars before position cs = .error err) :
    ∃ front c rest, Text.firstLineChars cs = front ++ c :: rest ∧
      (∀ d ∈ front, d ∈ alphabet) ∧ c ∉ alphabet ∧
      err = .unexpectedChar c (position + (String.ofList front).utf8ByteSize) := by
  fun_induction scanChars before position cs with
  | case1 before position => cases h
  | case2 before position c cs hline => cases h
  | case3 before position c cs hline s hsymbol ih =>
      obtain ⟨front, d, rest, hsplit, hfront, hd, herr⟩ := ih (map_eq_error_iff.mp h)
      have hc : c ∈ alphabet :=
        mem_alphabet_iff.mpr (.inr ⟨s, (symbolAt?_eq_some_iff.mp hsymbol).1⟩)
      refine ⟨c :: front, d, rest, ?_, by simpa [hc] using hfront, hd, ?_⟩
      · rw [Text.firstLineChars_cons (by simpa using hline), hsplit]
        rfl
      · rw [herr, String.ofList_cons, String.utf8ByteSize_append,
          String.utf8ByteSize_singleton, Nat.add_assoc]
  | case4 before position c cs hline hsymbol hc run text ih =>
      obtain ⟨front, d, rest, hsplit, hfront, hd, herr⟩ := ih (map_eq_error_iff.mp h)
      have hc : c = '-' ∨ isNumeral c = true := by simpa using hc
      have hrun : ∀ d ∈ run, isNumeral d = true :=
        fun d hd => List.all_eq_true.mp List.all_takeWhile d hd
      have hoperand : IsOperand (c :: run) := ⟨c, run, rfl, hc, hrun⟩
      refine ⟨c :: run ++ front, d, rest, ?_, ?_, hd, ?_⟩
      · have hcut : c :: cs = c :: run ++ cs.dropWhile isNumeral := by simp [run]
        rw [hcut, Text.firstLineChars_append hoperand.newline_not_mem, hsplit,
          List.append_assoc]
      · intro e he
        rcases List.mem_append.mp he with he | he
        · exact hoperand.mem_alphabet e he
        · exact hfront e he
      · rw [herr, String.ofList_append, String.utf8ByteSize_append, Nat.add_assoc]
  | case5 before position c cs hline hsymbol hc =>
      cases h
      obtain ⟨hminus, hnumeral⟩ : c ≠ '-' ∧ isNumeral c = false := by simpa using hc
      refine ⟨[], c, Text.firstLineChars cs, ?_, by simp,
        not_mem_alphabet hsymbol hminus hnumeral, rfl⟩
      exact Text.firstLineChars_cons (by simpa using hline) cs

theorem Canonical.mem_alphabet {before : Bool} {ts : List Token}
    (h : Canonical before ts) : ∀ c ∈ ts.flatMap chars, c ∈ alphabet := by
  intro c hc
  obtain ⟨t, ht, hc⟩ := List.mem_flatMap.mp hc
  cases t with
  | number text => exact (h.isOperand ht).mem_alphabet c hc
  | symbol s => exact mem_alphabet_iff.mpr (.inr ⟨s, List.mem_singleton.mp hc⟩)

/-- A scan fails exactly if there is a foreign character in the first line. -/
theorem exists_error_iff {s : String} :
    (∃ err, scan s = .error err) ↔
      ∃ c ∈ Text.firstLineChars s.toList, c ∉ alphabet := by
  constructor
  · intro h
    obtain ⟨err, herror⟩ := h
    obtain ⟨front, c, rest, hsplit, _, hc, _⟩ := exists_foreign_of_scanChars herror
    exact ⟨c, by simp [hsplit], hc⟩
  · intro h
    obtain ⟨c, hmem, hc⟩ := h
    cases hscan : scan s with
    | error err => exact ⟨err, rfl⟩
    | ok ts =>
        obtain ⟨hcanonical, hchars⟩ := scan_eq_ok_iff.mp hscan
        rw [← hchars] at hmem
        exact absurd (hcanonical.mem_alphabet c hmem) hc

/-- A text over the alphabet can be scanned. -/
theorem scan_ne_error {s : String} (h : ∀ c ∈ s.toList, c ∈ alphabet)
    (err : Error) : scan s ≠ .error err := by
  intro herror
  obtain ⟨c, hmem, hc⟩ := exists_error_iff.mp ⟨err, herror⟩
  exact hc (h c ((List.takeWhile_sublist _).mem hmem))

/-- **A scan fails exactly at foreign characters**: it fails if and only if the
first line holds one, and the error then names the first of them and how many
bytes precede it in the text, which is how many characters do. -/
theorem scan_fails_at_first_foreign (s : String) :
    ((∃ err, scan s = .error err) ↔ ∃ c ∈ (Text.firstLine s).toList, c ∉ alphabet) ∧
    ∀ err, scan s = .error err → ∃ front c rest,
      s = front ++ String.singleton c ++ rest ∧
      (∀ d ∈ front.toList, d ∈ alphabet) ∧ c ∉ alphabet ∧ c ≠ '\n' ∧
      err = .unexpectedChar c front.utf8ByteSize ∧
      front.utf8ByteSize = front.length := by
  refine ⟨by rw [Text.toList_firstLine]; exact exists_error_iff, fun err herror => ?_⟩
  obtain ⟨front, c, rest, hsplit, hfront, hc, rfl⟩ := exists_foreign_of_scanChars herror
  have hline : c ≠ '\n' := by
    rintro rfl
    exact Text.newline_not_mem_firstLineChars s.toList (by simp [hsplit])
  have hbytes := utf8ByteSize_of_mem_alphabet hfront
  -- the first line is a beginning of the text, so the text is split as it is
  obtain ⟨after, hs⟩ : ∃ after, s.toList = front ++ c :: after := by
    rcases Text.eq_firstLineChars_or_newline s.toList with hs | ⟨more, hs⟩
    · exact ⟨rest, hs.trans hsplit⟩
    · exact ⟨rest ++ '\n' :: more, by rw [hs, hsplit]; simp⟩
  refine ⟨String.ofList front, c, String.ofList after, ?_, by simpa using hfront, hc,
    hline, by rw [Nat.zero_add], by rw [hbytes, String.length_ofList]⟩
  apply String.toList_injective
  simp [hs]

/-- Of two foreign characters the first is named, and a character of more than
one byte does not count for its own position. -/
theorem scan_fails_at_first_foreign_accent :
    scan "-1é2€\n+" = .error (.unexpectedChar 'é' 2) ∧
    ∃ front c rest, "-1é2€\n+" = front ++ String.singleton c ++ rest ∧
      (∀ d ∈ front.toList, d ∈ alphabet) ∧ c ∉ alphabet ∧ c ≠ '\n' ∧
      Error.unexpectedChar 'é' 2 = .unexpectedChar c front.utf8ByteSize ∧
      front.utf8ByteSize = front.length := by
  have hscan : scan "-1é2€\n+" = .error (.unexpectedChar 'é' 2) := by
    rw [scan]
    show scanChars false 0 ['-', '1', 'é', '2', '€', '\n', '+'] = _
    rw [scanChars_number rfl (.inl rfl)]
    show _ <$> scanChars true (0 + (String.ofList ['-', '1']).utf8ByteSize)
      ['é', '2', '€', '\n', '+'] = _
    rw [scanChars_foreign (by decide) (by decide) (by decide) (by decide)]
    rfl
  exact ⟨hscan, (scan_fails_at_first_foreign "-1é2€\n+").2 _ hscan⟩

end Calculator.Token
