import Calculator.Proofs.Token.Canonical

/-!
# Tokens side by side

The tokens of a scan, put side by side again, are the first line that was
scanned. The other way round a list of tokens survives only if its texts do
not run together or change their role: an operand must not follow an operand,
and a minus that does not follow one would be read as a sign. Nothing else can
go wrong, so these conditions are exact.
-/

namespace Calculator.Token

/-! ## Legible lists -/

/-- The lists of tokens that can still be told apart side by side. -/
structure Legible (ts : List Token) : Prop where
  /-- An operand begins with a sign or a numeral and goes on with numerals. -/
  operands : ∀ text, number text ∈ ts → IsOperand text.toList
  /-- No operand stands directly behind an operand. -/
  apart : ∀ before text text' after,
    ts ≠ before ++ number text :: number text' :: after
  /-- A minus stands directly behind an operand. -/
  minus : ∀ before after, ts = before ++ .op .sub :: after →
    ∃ front text, before = front ++ [number text]

@[simp] theorem afterNumber_concat (before : Bool) (ts : List Token) (t : Token) :
    afterNumber before (ts ++ [t]) = t.isNumber := by
  rw [afterNumber_append]
  rfl

/-- The token before is an operand if the list read so far ends with one. -/
theorem afterNumber_eq_true_iff {ts : List Token} :
    afterNumber false ts = true ↔ ∃ front text, ts = front ++ [number text] := by
  constructor
  · intro h
    rcases List.eq_nil_or_concat ts with rfl | ⟨front, t, rfl⟩
    · cases h
    · cases t with
      | number text => exact ⟨front, text, by simp⟩
      | symbol s => simp [isNumber] at h
  · intro h
    obtain ⟨front, text, rfl⟩ := h
    exact afterNumber_concat false front (number text)

/-- What follows any beginning of a legible list can be scanned there. -/
theorem Legible.canonical_rest {before ts : List Token}
    (h : Legible (before ++ ts)) : Canonical (afterNumber false before) ts := by
  induction ts generalizing before with
  | nil => trivial
  | cons t ts ih =>
      have hrest : Canonical t.isNumber ts := by
        rw [← afterNumber_concat false before t]
        exact ih (by simpa using h)
      cases t with
      | number text =>
          have hbefore : afterNumber false before = false := by
            rw [← Bool.not_eq_true, afterNumber_eq_true_iff]
            intro hend
            obtain ⟨front, text', rfl⟩ := hend
            exact h.apart front text' text ts (by simp)
          exact ⟨hbefore, h.operands text (by simp), hrest⟩
      | symbol s =>
          refine ⟨fun hs => ?_, hrest⟩
          rw [afterNumber_eq_true_iff]
          exact h.minus before ts (by rw [hs])

/-- Legible lists and those that come out of a scan are the same. -/
theorem canonical_iff_legible {ts : List Token} :
    Canonical false ts ↔ Legible ts := by
  constructor
  · intro h
    refine ⟨fun text hmem => h.isOperand hmem, ?_, ?_⟩
    · rintro before text text' after rfl
      have hbehind := (canonical_append.mp h).2.2.2
      cases hbehind.1
    · rintro before after rfl
      have hminus := (canonical_append.mp h).2.1
      exact afterNumber_eq_true_iff.mp (hminus rfl)
  · intro h
    have hwhole : Legible ([] ++ ts) := h
    exact hwhole.canonical_rest

instance decidableLegible (ts : List Token) : Decidable (Legible ts) :=
  decidable_of_iff _ canonical_iff_legible

/-! ## Scanning tokens side by side -/

theorem char_ne_newline (s : Symbol) : s.char ≠ '\n' := by
  intro h
  have hchar := Symbol.ofChar?_char s
  rw [h] at hchar
  cases hchar

/-- The characters of a canonical list are on one line. -/
theorem Canonical.newline_not_mem {before : Bool} {ts : List Token}
    (h : Canonical before ts) : '\n' ∉ ts.flatMap chars := by
  intro hmem
  obtain ⟨t, ht, hchar⟩ := List.mem_flatMap.mp hmem
  cases t with
  | number text => exact (h.isOperand ht).newline_not_mem hchar
  | symbol s => exact char_ne_newline s (List.mem_singleton.mp hchar).symm

/-- The lists that are scanned back from their own characters. -/
theorem scan_joined_eq_ok_iff {ts : List Token} :
    scan (joined ts) = .ok ts ↔ Canonical false ts := by
  rw [scan_eq_ok_iff, toList_joined]
  constructor
  · intro h
    exact h.1
  · intro h
    exact ⟨h, (Text.firstLineChars_eq_self h.newline_not_mem).symm⟩

/-- **What a scan gives**: legible lists only, and every legible list out of
its tokens put side by side, and no other list out of its own tokens. -/
theorem legible_of_scan_and_back :
    (∀ s ts, scan s = .ok ts → Legible ts) ∧
    ∀ ts, scan (joined ts) = .ok ts ↔ Legible ts := by
  constructor
  · intro s ts h
    exact canonical_iff_legible.mp (scan_eq_ok_iff.mp h).1
  · intro ts
    rw [scan_joined_eq_ok_iff, canonical_iff_legible]

/-- Of three signs the middle one is a minus between two operands that have
no digits; behind a parenthesis a minus is not scanned as one. -/
theorem legible_of_scan_and_back_minus :
    (Token.scan "---" = .ok [number "-", .op .sub, number "-"] ∧
      Legible [number "-", .op .sub, number "-"]) ∧
    Token.scan (joined [.rpar, .op .sub]) ≠ .ok [.rpar, .op .sub] := by
  have hscan : Token.scan "---" = .ok [number "-", .op .sub, number "-"] :=
    scan_eq_ok_iff.mpr (by decide +kernel)
  refine ⟨⟨hscan, legible_of_scan_and_back.1 _ _ hscan⟩, fun hback => ?_⟩
  exact absurd ((legible_of_scan_and_back.2 _).mp hback) (by decide)

/-- **A scan loses nothing**: its tokens side by side are the text up to the
first line feed, or all of the text if it has none. -/
theorem joined_of_scan {s : String} {ts : List Token} (h : scan s = .ok ts) :
    '\n' ∉ (joined ts).toList ∧
      (s = joined ts ∨ ∃ rest, s = joined ts ++ "\n" ++ rest) := by
  have hline : (joined ts).toList = Text.firstLineChars s.toList := by
    rw [toList_joined]
    exact (scan_eq_ok_iff.mp h).2
  refine ⟨hline ▸ Text.newline_not_mem_firstLineChars s.toList, ?_⟩
  rcases Text.eq_firstLineChars_or_newline s.toList with hs | ⟨rest, hs⟩
  · exact .inl (String.toList_injective (hs.trans hline.symm))
  · refine .inr ⟨String.ofList rest, String.toList_injective ?_⟩
    rw [← hline] at hs
    simpa using hs

/-- What follows the first line is not read, even if it is foreign. -/
theorem joined_of_scan_two_lines :
    Token.scan "(1.5+-2)*3\n&" = .ok [.lpar, number "1.5", .op .add, number "-2",
      .rpar, .op .mul, number "3"] ∧
    ('\n' ∉ "(1.5+-2)*3".toList ∧
      ("(1.5+-2)*3\n&" = "(1.5+-2)*3" ∨
        ∃ rest, "(1.5+-2)*3\n&" = "(1.5+-2)*3" ++ "\n" ++ rest)) := by
  have hscan : Token.scan "(1.5+-2)*3\n&" = .ok [.lpar, number "1.5", .op .add,
      number "-2", .rpar, .op .mul, number "3"] :=
    scan_eq_ok_iff.mpr (by decide +kernel)
  have hjoined : joined [.lpar, number "1.5", .op .add, number "-2", .rpar,
      .op .mul, number "3"] = "(1.5+-2)*3" := by decide +kernel
  exact ⟨hscan, hjoined ▸ joined_of_scan hscan⟩

end Calculator.Token
