import Calculator.Proofs.Token.Joined
import Calculator.Proofs.Token.Spaced
import Calculator.Proofs.Written

/-!
# Reading a trace back

A trace shows two lists of tokens with spaces between them. In general such a
text does not determine its list, since a lone sign can be an operand or an
operator. An input that has a value has literals for operands, so its trace
does determine both lists, and with them the value.
-/

namespace Calculator

/-! ## The operands of a conversion -/

theorem Expr.number_mem_postorder_iff {e : Expr} {text : String} :
    Token.number text ∈ e.postorder ↔ Expr.number text ∈ e.parts := by
  induction e with
  | number text' => simp [postorder]
  | binary o l r ihl ihr => simp [postorder, ihl, ihr]

/-- The conversion of an expression has its operands. -/
theorem Reads.number_mem_ofInfix_iff {ts : List Token} {e : Expr}
    {text : String} (h : Reads .sum ts e) :
    Token.number text ∈ Rpn.ofInfix ts ↔ Token.number text ∈ ts := by
  rw [h.ofInfix_eq, Expr.number_mem_postorder_iff, h.number_mem_parts_iff]

/-! ## What an analysis gives -/

theorem analyse_eq_ok_iff {input : String} {t : Trace} :
    analyse input = .ok t ↔
      ∃ ts v, readExpression input = .ok ts ∧
        Rpn.value (Rpn.ofInfix ts) = .ok v ∧
        t = ⟨Token.spaced ts, Token.spaced (Rpn.ofInfix ts), v⟩ := by
  rw [analyse, bind_eq_ok_iff]
  constructor
  · intro h
    obtain ⟨ts, hread, h⟩ := h
    obtain ⟨v, hv, ht⟩ := bind_eq_ok_iff.mp h
    exact ⟨ts, v, hread, hv, (Except.ok.inj ht).symm⟩
  · intro h
    obtain ⟨ts, v, hread, hv, rfl⟩ := h
    exact ⟨ts, hread, bind_eq_ok_iff.mpr ⟨v, hv, rfl⟩⟩

/-- The tokens of an input that has a value, with what their text needs to be
read back. -/
structure Traced (input : String) (ts : List Token) (t : Trace) : Prop where
  scan : Token.scan input = .ok ts
  value : Rpn.value (Rpn.ofInfix ts) = .ok t.value
  tokens : t.tokens = Token.spaced ts
  rpn : t.rpn = Token.spaced (Rpn.ofInfix ts)
  ne_nil : ts ≠ []
  rpn_ne_nil : Rpn.ofInfix ts ≠ []
  literals : ∀ text, Token.number text ∈ ts → IsLiteral text.toList
  rpn_literals : ∀ text, Token.number text ∈ Rpn.ofInfix ts → IsLiteral text.toList

theorem Traced.of_analyse {input : String} {t : Trace}
    (h : analyse input = .ok t) : ∃ ts, Traced input ts t := by
  obtain ⟨ts, v, hread, hv, rfl⟩ := analyse_eq_ok_iff.mp h
  obtain ⟨hscan, hcheck⟩ := readExpression_eq_ok_iff.mp hread
  have hexpr := (checkExpression_eq_ok_iff.mp hcheck).1
  obtain ⟨e, he⟩ := hexpr.exists_reads
  have hvalue : e.value = .ok v := by
    rw [← e.value_postorder, ← he.ofInfix_eq]
    exact hv
  have hcanonical := (Token.scan_eq_ok_iff.mp hscan).1
  have hliterals : ∀ text, Token.number text ∈ ts → IsLiteral text.toList :=
    fun text hmem =>
      (hcanonical.isOperand hmem).isLiteral (he.ofChars?_ne_none hvalue hmem)
  refine ⟨ts, hscan, hv, rfl, rfl, hexpr.ne_nil, ?_, hliterals, ?_⟩
  · intro hnil
    rw [hnil] at hv
    cases hv
  · intro text hmem
    exact hliterals text (he.number_mem_ofInfix_iff.mp hmem)

namespace Traced

variable {input : String} {ts : List Token} {t : Trace}

theorem ofSpaced_tokens (h : Traced input ts t) : Token.ofSpaced t.tokens = ts := by
  rw [h.tokens, Token.ofSpaced_spaced h.literals h.ne_nil]

theorem ofSpaced_rpn (h : Traced input ts t) :
    Token.ofSpaced t.rpn = Rpn.ofInfix ts := by
  rw [h.rpn, Token.ofSpaced_spaced h.rpn_literals h.rpn_ne_nil]

/-- The value can be computed from the trace alone. -/
theorem value_rpn (h : Traced input ts t) :
    Rpn.value (Token.ofSpaced t.rpn) = .ok t.value := by
  rw [h.ofSpaced_rpn, h.value]

theorem filter_tokens (h : Traced input ts t) :
    t.tokens.toList.filter (· != ' ') = Text.firstLineChars input.toList := by
  rw [h.tokens, Token.filter_spaced h.literals]
  exact (Token.scan_eq_ok_iff.mp h.scan).2

end Traced

/-- **A trace can be read back**: cut at its spaces, its first text gives the
tokens of the input and its second text their conversion, which computes to
the value of the trace; the first text without spaces is the first line of the
input; the value is that of the input. So two inputs with one conversion text
have one value. -/
theorem trace_read_back {input : String} {t : Trace}
    (h : analyse input = .ok t) :
    Token.scan input = .ok (Token.ofSpaced t.tokens) ∧
    Token.ofSpaced t.rpn = Rpn.ofInfix (Token.ofSpaced t.tokens) ∧
    Rpn.value (Token.ofSpaced t.rpn) = .ok t.value ∧
    t.tokens.toList.filter (· != ' ') = Text.firstLineChars input.toList ∧
    evaluate input = .ok t.value ∧
    ∀ input' t', analyse input' = .ok t' → t'.rpn = t.rpn → t'.value = t.value := by
  obtain ⟨ts, ht⟩ := Traced.of_analyse h
  refine ⟨?_, ?_, ht.value_rpn, ht.filter_tokens, ?_, ?_⟩
  · rw [ht.ofSpaced_tokens, ht.scan]
  · rw [ht.ofSpaced_rpn, ht.ofSpaced_tokens]
  · rw [← value_analyse, h]
    rfl
  · intro input' t' h' hrpn
    obtain ⟨ts', ht'⟩ := Traced.of_analyse h'
    have hvalue := ht'.value_rpn
    rw [hrpn, ht.value_rpn] at hvalue
    exact (Except.ok.inj hvalue).symm

/-- The second minus is a sign, which the text keeps at its literal. -/
theorem trace_read_back_sign :
    analyse "2*(3--.5)" = .ok ⟨"2 * ( 3 - -.5 )", "2 3 -.5 - *", 7⟩ ∧
      Token.scan "2*(3--.5)" = .ok (Token.ofSpaced "2 * ( 3 - -.5 )") ∧
      Rpn.value (Token.ofSpaced "2 3 -.5 - *") = .ok 7 := by
  have hscan : Token.scan "2*(3--.5)" = .ok [.number "2", .op .mul, .lpar,
      .number "3", .op .sub, .number "-.5", .rpar] :=
    Token.scan_eq_ok_iff.mpr (by decide +kernel)
  have hread := readExpression_eq_ok_iff.mpr ⟨hscan, rfl⟩
  have hvalue : Rpn.value [.number "2", .number "3", .number "-.5", .op .sub,
      .op .mul] = .ok 7 := toOption_eq_some_iff.mp (by decide +kernel)
  have htokens : Token.spaced [.number "2", .op .mul, .lpar, .number "3", .op .sub,
      .number "-.5", .rpar] = "2 * ( 3 - -.5 )" := by decide +kernel
  have hrpn : Token.spaced [.number "2", .number "3", .number "-.5", .op .sub,
      .op .mul] = "2 3 -.5 - *" := by decide +kernel
  have h : analyse "2*(3--.5)" = .ok ⟨"2 * ( 3 - -.5 )", "2 3 -.5 - *", 7⟩ :=
    analyse_eq_ok_iff.mpr ⟨_, 7, hread, hvalue, by
      rw [htokens, ← hrpn]
      rfl⟩
  exact ⟨h, (trace_read_back h).1, (trace_read_back h).2.2.1⟩

end Calculator
