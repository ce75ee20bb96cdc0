import Calculator.Proofs.Decimal.Literal
import Calculator.Proofs.Token.Canonical

/-!
# Tokens set apart by spaces

A text in which spaces set the tokens apart is read back by cutting it at its
spaces: a piece that is one of the symbols is that symbol, and any other piece
is an operand. An operand that is a lone sign would come back as an operator.
A literal has a digit, so if all operands are literals the tokens come back as
they were.
-/

namespace Calculator

namespace Token

/-! ## Reading back -/

/-- The token of a piece: the symbol that it spells, or else an operand. -/
def ofPiece : List Char → Token
  | [c] =>
    match Symbol.ofChar? c with
    | some s => symbol s
    | none => number (String.ofList [c])
  | cs => number (String.ofList cs)

/-- The tokens of the pieces of a text between its spaces. -/
def ofSpaced (s : String) : List Token :=
  (s.toList.splitOn ' ').map ofPiece

theorem ofPiece_symbol (s : Symbol) : ofPiece [s.char] = symbol s := by
  rw [ofPiece, Symbol.ofChar?_char]

/-- A piece is an operand if it is not one of the symbols. -/
theorem ofPiece_number {cs : List Char} (h : ∀ s : Symbol, cs ≠ [s.char]) :
    ofPiece cs = number (String.ofList cs) := by
  unfold ofPiece
  split
  · rename_i c
    split
    · rename_i s hs
      exact absurd (by rw [Symbol.char_ofChar? hs]) (h s)
    · rfl
  · rfl

/-- An operand that is a lone sign is not told from the operator. -/
example : ofPiece (number "-").chars = .op .sub := by decide +kernel

end Token

/-! ## Literals as pieces -/

namespace IsLiteral

variable {cs : List Char}

theorem exists_digit (h : IsLiteral cs) : ∃ c ∈ cs, c.isDigit = true := by
  obtain ⟨sign, body, rfl, _, _, _, c, hc, hdigit⟩ := h
  exact ⟨c, List.mem_append_right sign hc, hdigit⟩

/-- No literal is one of the symbols. -/
theorem ne_symbol (h : IsLiteral cs) (s : Symbol) : cs ≠ [s.char] := by
  rintro rfl
  obtain ⟨c, hc, hdigit⟩ := h.exists_digit
  have hnumeral : Token.isNumeral s.char = true := by
    rw [← List.mem_singleton.mp hc]
    exact Token.isNumeral_iff.mpr (.inl hdigit)
  rw [Token.isNumeral_char] at hnumeral
  cases hnumeral

theorem space_not_mem (h : IsLiteral cs) : ' ' ∉ cs := by
  obtain ⟨sign, body, rfl, hsign, hbody, _⟩ := h
  intro hmem
  rcases List.mem_append.mp hmem with hmem | hmem
  · rcases hsign with rfl | rfl
    · cases hmem
    · exact absurd hmem (by decide)
  · exact absurd (hbody ' ' hmem) (by decide)

end IsLiteral

theorem Symbol.char_ne_space (s : Symbol) : s.char ≠ ' ' := by
  intro h
  have hchar := Symbol.ofChar?_char s
  rw [h] at hchar
  cases hchar

/-! ## Lists of tokens -/

namespace Token

variable {ts : List Token}
  (hliterals : ∀ text, number text ∈ ts → IsLiteral text.toList)

include hliterals

theorem space_not_mem_chars {t : Token} (ht : t ∈ ts) : ' ' ∉ t.chars := by
  cases t with
  | number text => exact (hliterals text ht).space_not_mem
  | symbol s => exact fun hmem => s.char_ne_space (List.mem_singleton.mp hmem).symm

theorem ofPiece_chars {t : Token} (ht : t ∈ ts) : ofPiece t.chars = t := by
  cases t with
  | number text =>
      rw [chars, ofPiece_number (hliterals text ht).ne_symbol, String.ofList_toList]
  | symbol s => exact ofPiece_symbol s

/-- Tokens whose operands are literals come back from their text. -/
theorem ofSpaced_spaced (hne : ts ≠ []) : ofSpaced (spaced ts) = ts := by
  have hpieces : (spaced ts).toList.splitOn ' ' = ts.map chars := by
    rw [toList_spaced]
    refine List.splitOn_intercalate ' ' ?_ (by simpa using hne)
    intro cs hcs
    obtain ⟨t, ht, rfl⟩ := List.mem_map.mp hcs
    exact space_not_mem_chars hliterals ht
  have hback : ∀ t ∈ ts, (ofPiece ∘ chars) t = id t :=
    fun t ht => ofPiece_chars hliterals ht
  rw [ofSpaced, hpieces, List.map_map, List.map_congr_left hback, List.map_id]

/-- Without its spaces the text is that of the tokens side by side. -/
theorem filter_spaced :
    (spaced ts).toList.filter (· != ' ') = ts.flatMap chars := by
  rw [toList_spaced]
  induction ts with
  | nil => rfl
  | cons t ts ih =>
      have ht : t.chars.filter (· != ' ') = t.chars := by
        rw [List.filter_eq_self]
        intro c hc
        have hspace := space_not_mem_chars hliterals (List.mem_cons_self (a := t))
        simpa using fun heq : c = ' ' => hspace (heq ▸ hc)
      have hrest := ih fun text hmem => hliterals text (List.mem_cons_of_mem t hmem)
      cases ts with
      | nil => simpa using ht
      | cons u us =>
          rw [List.map_cons] at hrest
          rw [List.map_cons, List.map_cons, List.intercalate_cons_cons,
            List.filter_append, List.filter_append, ht, hrest]
          simp

end Token

end Calculator
