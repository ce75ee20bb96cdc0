import Calculator.Proofs.Decimal.Literal
import Calculator.Proofs.Token.Canonical
import Calculator.Proofs.Value

/-!
# Which inputs have a value

The inputs that can have a value form a language of characters, described
without tokens: literals, groups, and two expressions joined by an operator,
where a minus joins only directly behind a literal. A text of the language is
scanned as the tokens of its derivation, and the tokens of an input that has
a value give a derivation back. A lone literal is left out.
-/

namespace Calculator

/-! ## The language -/

/-- `Written onLiteral cs`: the characters are an expression, which ends with
a literal or else with a closing parenthesis. -/
inductive Written : Bool → List Char → Prop where
  | literal {cs : List Char} : IsLiteral cs → Written true cs
  | group {onLiteral : Bool} {cs : List Char} :
      Written onLiteral cs → Written false ('(' :: cs ++ [')'])
  /-- Behind a group a minus would be the sign of a literal. -/
  | binary {onLiteral onLiteral' : Bool} {ls rs : List Char} (o : Operator)
      (minus : o = .sub → onLiteral = true) :
      Written onLiteral ls → Written onLiteral' rs →
        Written onLiteral' (ls ++ o.char :: rs)

/-- The characters are an expression, and more than a lone literal. -/
def InLanguage (cs : List Char) : Prop :=
  (∃ onLiteral, Written onLiteral cs) ∧ ¬ IsLiteral cs

/-! ## Operands -/

namespace Token

theorem numerals_iff {cs : List Char} :
    Numerals cs ↔ ∀ c ∈ cs, isNumeral c = true := by
  simp only [Numerals, isNumeral_iff]

/-- A literal is scanned as an operand. -/
theorem isOperand_of_isLiteral {cs : List Char} (h : IsLiteral cs) :
    IsOperand cs := by
  obtain ⟨sign, body, rfl, hsign, hbody, _, d, hd, _⟩ := h
  rcases hsign with rfl | rfl
  · cases body with
    | nil => cases hd
    | cons c body =>
        have hall := numerals_iff.mp hbody
        exact ⟨c, body, rfl, .inr (hall c (by simp)),
          fun e he => hall e (List.mem_cons_of_mem c he)⟩
  · exact ⟨'-', body, rfl, .inl rfl, numerals_iff.mp hbody⟩

theorem canonical_literal {cs : List Char} (h : IsLiteral cs) :
    Canonical false [.number (String.ofList cs)] :=
  ⟨rfl, by simpa using isOperand_of_isLiteral h, trivial⟩

/-- An operand is digits and points behind a sign or none. -/
theorem IsOperand.exists_sign {cs : List Char} (h : IsOperand cs) :
    ∃ sign body, cs = sign ++ body ∧ (sign = [] ∨ sign = ['-']) ∧
      Numerals body := by
  obtain ⟨c, run, rfl, rfl | hc, hrun⟩ := h
  · exact ⟨['-'], run, rfl, .inr rfl, numerals_iff.mpr hrun⟩
  · refine ⟨[], c :: run, rfl, .inl rfl, numerals_iff.mpr ?_⟩
    simpa [hc] using hrun

/-- An operand that is read as a number is a literal. -/
theorem IsOperand.isLiteral {cs : List Char} (h : IsOperand cs)
    (hread : Literal.ofChars? cs ≠ none) : IsLiteral cs := by
  obtain ⟨sign, body, rfl, hsign, hbody⟩ := h.exists_sign
  refine ⟨sign, body, rfl, hsign, hbody, ?_⟩
  rw [Ne, Literal.ofChars?_eq_none_iff hsign hbody, Classical.not_not] at hread
  exact hread

end Token

/-! ## Characters and tokens -/

/-- The tokens of an expression that can come out of a scan, with literals
for operands. -/
structure Spelled (onLiteral : Bool) (ts : List Token) : Prop where
  canonical : Token.Canonical false ts
  ending : Token.afterNumber false ts = onLiteral
  expression : IsExpression ts
  literals : ∀ text, Token.number text ∈ ts → IsLiteral text.toList

/-- An expression of characters is that of some tokens. -/
theorem Written.exists_spelled {onLiteral : Bool} {cs : List Char}
    (h : Written onLiteral cs) :
    ∃ ts, ts.flatMap Token.chars = cs ∧ Spelled onLiteral ts := by
  induction h with
  | @literal cs h =>
      refine ⟨[.number (String.ofList cs)], by simp [Token.chars],
        Token.canonical_literal h, rfl, .number _, ?_⟩
      intro text hmem
      cases List.mem_singleton.mp hmem
      simpa using h
  | group _ ih =>
      obtain ⟨ts, rfl, hts⟩ := ih
      refine ⟨.lpar :: ts ++ [.rpar], by simp [Token.chars, Symbol.char],
        Token.canonical_group_iff.mpr hts.canonical,
        Token.afterNumber_group false ts, .group hts.expression, ?_⟩
      intro text hmem
      exact hts.literals text (by simpa using hmem)
  | binary o minus _ _ ihl ihr =>
      obtain ⟨ls, rfl, hls⟩ := ihl
      obtain ⟨rs, rfl, hrs⟩ := ihr
      refine ⟨ls ++ .op o :: rs, by simp [Token.chars, Symbol.char], ?_, ?_,
        .binary o hls.expression hrs.expression, ?_⟩
      · refine Token.canonical_binary_iff.mpr ⟨hls.canonical, ?_, hrs.canonical⟩
        rw [hls.ending]
        exact minus
      · rw [Token.afterNumber_binary, hrs.ending]
      · intro text hmem
        have hside : .number text ∈ ls ∨ Token.number text ∈ rs := by
          simpa using hmem
        exact hside.elim (hls.literals text) (hrs.literals text)

/-- The tokens of an expression spell one of characters. -/
theorem Spelled.written {onLiteral : Bool} {ts : List Token}
    (h : Spelled onLiteral ts) : Written onLiteral (ts.flatMap Token.chars) := by
  obtain ⟨hcanonical, hending, hexpr, hliterals⟩ := h
  induction hexpr generalizing onLiteral with
  | number text =>
      have hnumber : onLiteral = true := hending.symm
      rw [hnumber]
      simpa [Token.chars] using Written.literal (hliterals text (by simp))
  | group _ ih =>
      rw [Token.afterNumber_group] at hending
      cases hending
      have hinner := ih (Token.canonical_group_iff.mp hcanonical) rfl
        (fun text hmem => hliterals text (by simp [hmem]))
      simpa [Token.chars, Symbol.char] using hinner.group
  | binary o _ _ ihl ihr =>
      obtain ⟨hls, minus, hrs⟩ := Token.canonical_binary_iff.mp hcanonical
      rw [Token.afterNumber_binary] at hending
      have hleft := ihl hls rfl (fun text hmem => hliterals text (by simp [hmem]))
      have hright := ihr hrs hending
        (fun text hmem => hliterals text (by simp [hmem]))
      simpa [Token.chars, Symbol.char] using Written.binary o minus hleft hright

/-! ## The operands of the tree -/

/-- The leaves of the tree are the operands of the expression. -/
theorem Reads.number_mem_parts_iff {level : Level} {ts : List Token} {e : Expr}
    {text : String} (h : Reads level ts e) :
    Expr.number text ∈ e.parts ↔ Token.number text ∈ ts := by
  induction h with
  | number text' => simp
  | group _ ih => simp [ih]
  | ofFactor _ ih => exact ih
  | product o _ _ _ ihl ihr => simp [ihl, ihr]
  | ofProduct _ ih => exact ih
  | sum o _ _ _ ihl ihr => simp [ihl, ihr]

/-- Where all operands are literals, only their size or a division by zero
can fail. -/
theorem Expr.FirstFails.error_eq {level : Level} {ts : List Token} {e : Expr}
    {err : Error} (h : e.FirstFails err) (he : Reads level ts e)
    (hliterals : ∀ text, Token.number text ∈ ts → IsLiteral text.toList) :
    err = .divisionByZero ∨ ∃ text, err = .nonFiniteNumber text := by
  obtain ⟨before, d, after, hsplit, _, hd⟩ := h
  have hmem : d ∈ e.parts := by simp [hsplit]
  cases hd with
  | @number text _ hread =>
      cases (readNumber_eq_error_iff []).mp hread with
      | unreadable hnone =>
          have hliteral := hliterals text (he.number_mem_parts_iff.mp hmem)
          exact absurd hnone hliteral.ofChars?_ne_none
      | nonFinite _ _ => exact .inr ⟨text, rfl⟩
  | zeroDivisor _ _ _ => exact .inl rfl

/-- If an expression has a value, each of its operands is read as a number. -/
theorem Reads.ofChars?_ne_none {level : Level} {ts : List Token} {e : Expr}
    {v : Float} {text : String} (h : Reads level ts e) (hv : e.value = .ok v)
    (hmem : Token.number text ∈ ts) : Literal.ofChars? text.toList ≠ none := by
  obtain ⟨w, hw⟩ :=
    Expr.exists_value_of_mem_parts hv (h.number_mem_parts_iff.mpr hmem)
  intro hnone
  have hread := (readNumber_eq_error_iff []).mpr (.unreadable hnone)
  rw [Expr.value, hread] at hw
  cases hw

/-! ## The inputs that have a value -/

/-- The tokens of a lone literal are one operand. -/
theorem length_eq_one_of_isLiteral {s : String} {ts : List Token}
    (hscan : Token.scan s = .ok ts)
    (hliteral : IsLiteral (Text.firstLineChars s.toList)) : ts.length = 1 := by
  have hone : Token.scan s
      = .ok [.number (String.ofList (Text.firstLineChars s.toList))] :=
    Token.scan_eq_ok_iff.mpr
      ⟨Token.canonical_literal hliteral, by simp [Token.chars]⟩
  rw [hscan] at hone
  rw [Except.ok.inj hone]
  rfl

/-- The tokens of a text of the language pass the check, and all their
operands are literals. -/
theorem InLanguage.exists_tokens {s : String}
    (h : InLanguage (Text.firstLineChars s.toList)) :
    ∃ ts, readExpression s = .ok ts ∧
      ∀ text, Token.number text ∈ ts → IsLiteral text.toList := by
  obtain ⟨⟨onLiteral, hwritten⟩, hlone⟩ := h
  obtain ⟨ts, hchars, hts⟩ := hwritten.exists_spelled
  refine ⟨ts, readExpression_eq_ok_iff.mpr ⟨?_, ?_⟩, hts.literals⟩
  · exact Token.scan_eq_ok_iff.mpr ⟨hts.canonical, hchars⟩
  · refine checkExpression_eq_ok_iff.mpr ⟨hts.expression, fun hlength => hlone ?_⟩
    -- a lone operand would be the whole line
    obtain ⟨text, rfl⟩ := hts.expression.length_eq_one_iff.mp hlength
    rw [← hchars]
    simpa [Token.chars] using hts.literals text (by simp)

/-- **The language of the calculator**: an input whose first line is in the
language has a value unless a division by zero or an operand beyond the
doubles prevents it, and every input that has a value is in the language. -/
theorem evaluate_language (s : String) :
    (InLanguage (Text.firstLineChars s.toList) →
      (∃ v, evaluate s = .ok v) ∨ evaluate s = .error .divisionByZero ∨
        ∃ text, evaluate s = .error (.nonFiniteNumber text)) ∧
    ∀ v, evaluate s = .ok v → InLanguage (Text.firstLineChars s.toList) := by
  constructor
  · intro h
    obtain ⟨ts, hread, hliterals⟩ := h.exists_tokens
    have hcheck := (readExpression_eq_ok_iff.mp hread).2
    obtain ⟨e, he⟩ := (checkExpression_eq_ok_iff.mp hcheck).1.exists_reads
    rw [evaluate_eq_value hread he]
    cases hvalue : e.value with
    | ok v => exact .inl ⟨v, rfl⟩
    | error err =>
        have hfirst := Expr.value_eq_error_iff.mp hvalue
        rcases hfirst.error_eq he hliterals with rfl | ⟨text, rfl⟩
        · exact .inr (.inl rfl)
        · exact .inr (.inr ⟨text, rfl⟩)
  · intro v hv
    obtain ⟨ts, hread, _⟩ := bind_eq_ok_iff.mp hv
    obtain ⟨hscan, hcheck⟩ := readExpression_eq_ok_iff.mp hread
    obtain ⟨hexpr, hlength⟩ := checkExpression_eq_ok_iff.mp hcheck
    obtain ⟨e, he⟩ := hexpr.exists_reads
    rw [evaluate_eq_value hread he] at hv
    obtain ⟨hcanonical, hchars⟩ := Token.scan_eq_ok_iff.mp hscan
    have hspelled : Spelled (Token.afterNumber false ts) ts :=
      { canonical := hcanonical
        ending := rfl
        expression := hexpr
        literals := fun text hmem =>
          (hcanonical.isOperand hmem).isLiteral (he.ofChars?_ne_none hv hmem) }
    refine ⟨⟨_, hchars ▸ hspelled.written⟩, fun hlone => ?_⟩
    exact hlength (length_eq_one_of_isLiteral hscan hlone)

/-- A binary minus behind a literal, and a sign behind an operator. -/
theorem evaluate_language_signs :
    InLanguage (Text.firstLineChars "2*(3--.5)".toList) ∧
      evaluate "2*(3--.5)" = .ok 7 ∧
      ((∃ v, evaluate "2*(3--.5)" = .ok v) ∨
        evaluate "2*(3--.5)" = .error .divisionByZero ∨
        ∃ text, evaluate "2*(3--.5)" = .error (.nonFiniteNumber text)) := by
  have htwo : IsLiteral ['2'] :=
    ⟨[], ['2'], rfl, .inl rfl, by simp [Numerals], by simp [SpellsNumber]⟩
  have hthree : IsLiteral ['3'] :=
    ⟨[], ['3'], rfl, .inl rfl, by simp [Numerals], by simp [SpellsNumber]⟩
  have hhalf : IsLiteral ['-', '.', '5'] :=
    ⟨['-'], ['.', '5'], rfl, .inr rfl, by simp [Numerals], by simp [SpellsNumber]⟩
  have hline : Text.firstLineChars "2*(3--.5)".toList
      = ['2', '*', '(', '3', '-', '-', '.', '5', ')'] := by decide +kernel
  have hlanguage : InLanguage (Text.firstLineChars "2*(3--.5)".toList) := by
    rw [hline]
    refine ⟨⟨false, ?_⟩, fun hlone => ?_⟩
    · exact .binary .mul (by simp) (.literal htwo)
        (.group (.binary .sub (fun _ => rfl) (.literal hthree) (.literal hhalf)))
    · obtain ⟨c, run, hchars, _, hrun⟩ := Token.isOperand_of_isLiteral hlone
      cases hchars
      exact absurd (hrun '*' (by simp)) (by decide)
  have hread : readExpression "2*(3--.5)" = .ok [.number "2", .op .mul, .lpar, .number "3",
      .op .sub, .number "-.5", .rpar] :=
    readExpression_eq_ok_iff.mpr ⟨Token.scan_eq_ok_iff.mpr (by decide +kernel), rfl⟩
  have hvalue : evaluate "2*(3--.5)" = .ok 7 := by
    rw [evaluate, hread]
    exact toOption_eq_some_iff.mp (by decide +kernel)
  exact ⟨hlanguage, hvalue, (evaluate_language "2*(3--.5)").1 hlanguage⟩

end Calculator
