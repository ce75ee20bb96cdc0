import Calculator.Proofs.Outcome
import Calculator.Proofs.Run
import Calculator.Proofs.Token.Line

/-!
# The lists of tokens that a scan gives

A scan gives back the characters it has read, and the lists that come out of
it are the canonical ones: every operand begins with a numeral or a sign and
goes on with numerals, no operand follows an operand, and a minus follows
one. Conversely the characters of a canonical list are scanned as that list,
since an operand cannot run into the symbol behind it.
-/

namespace Calculator.Token

/-! ## Characters -/

theorem isNumeral_iff {c : Char} :
    isNumeral c = true ↔ c.isDigit = true ∨ c = '.' := by
  simp [isNumeral]

theorem isNumeral_char (s : Symbol) : isNumeral s.char = false := by
  cases s with
  | op o => cases o <;> decide
  | lpar => decide
  | rpar => decide

theorem char_eq_minus_iff {s : Symbol} : s.char = '-' ↔ s = .op .sub := by
  constructor
  · intro h
    exact Symbol.char_injective (b := .op .sub) h
  · intro h
    rw [h]
    rfl

/-- A symbol is read as itself; a minus is one only behind an operand. -/
theorem symbolAt?_eq_some_iff {afterNumber : Bool} {c : Char} {s : Symbol} :
    symbolAt? afterNumber c = some s ↔
      c = s.char ∧ (s = .op .sub → afterNumber = true) := by
  unfold symbolAt?
  by_cases hminus : c = '-'
  · subst hminus
    cases afterNumber with
    | false =>
        constructor
        · intro h
          cases h
        · intro h
          obtain ⟨hc, hs⟩ := h
          cases hs (char_eq_minus_iff.mp hc.symm)
    | true =>
        constructor
        · intro h
          exact ⟨(Symbol.char_ofChar? h).symm, fun _ => rfl⟩
        · intro h
          obtain ⟨hc, _⟩ := h
          rw [char_eq_minus_iff.mp hc.symm]
          rfl
  · have hno : (c == '-' && !afterNumber) = false := by simp [hminus]
    rw [hno]
    constructor
    · intro h
      have hc : c = s.char := (Symbol.char_ofChar? h).symm
      refine ⟨hc, fun hs => ?_⟩
      rw [hs] at hc
      exact absurd hc hminus
    · intro h
      obtain ⟨hc, _⟩ := h
      rw [hc]
      exact Symbol.ofChar?_char s

theorem symbolAt?_numeral {afterNumber : Bool} {c : Char}
    (h : isNumeral c = true) : symbolAt? afterNumber c = none := by
  cases hs : symbolAt? afterNumber c with
  | none => rfl
  | some s =>
      rw [(symbolAt?_eq_some_iff.mp hs).1, isNumeral_char] at h
      cases h

/-! ## Canonical lists -/

/-- `IsOperand cs`: the characters begin with a sign or a numeral and go on
with numerals. -/
def IsOperand (cs : List Char) : Prop :=
  ∃ c run, cs = c :: run ∧ (c = '-' ∨ isNumeral c = true) ∧
    ∀ d ∈ run, isNumeral d = true

theorem isOperand_cons_iff {c : Char} {run : List Char} :
    IsOperand (c :: run) ↔
      (c = '-' ∨ isNumeral c = true) ∧ run.all isNumeral = true := by
  rw [List.all_eq_true]
  constructor
  · intro h
    obtain ⟨c, run, h, hc, hrun⟩ := h
    cases h
    exact ⟨hc, hrun⟩
  · intro h
    obtain ⟨hc, hrun⟩ := h
    exact ⟨c, run, rfl, hc, hrun⟩

instance decidableIsOperand : (cs : List Char) → Decidable (IsOperand cs)
  | [] => isFalse fun ⟨_, _, h, _⟩ => by cases h
  | _ :: _ => decidable_of_iff' _ isOperand_cons_iff

theorem IsOperand.newline_not_mem {cs : List Char} (h : IsOperand cs) :
    '\n' ∉ cs := by
  obtain ⟨c, run, rfl, hc, hrun⟩ := h
  intro hmem
  rcases List.mem_cons.mp hmem with rfl | hmem
  · exact absurd hc (by decide)
  · exact absurd (hrun _ hmem) (by decide)

/-- `Canonical afterNumber ts`: behind an operand or not, the list `ts` can
come out of a scan. -/
def Canonical : Bool → List Token → Prop
  | _, [] => True
  | afterNumber, number text :: ts =>
    afterNumber = false ∧ IsOperand text.toList ∧ Canonical true ts
  | afterNumber, symbol s :: ts =>
    (s = .op .sub → afterNumber = true) ∧ Canonical false ts

instance decidableCanonical :
    (afterNumber : Bool) → (ts : List Token) → Decidable (Canonical afterNumber ts)
  | _, [] => instDecidableTrue
  | afterNumber, number text :: ts =>
    have := decidableCanonical true ts
    inferInstanceAs (Decidable (afterNumber = false ∧ IsOperand text.toList ∧ _))
  | afterNumber, symbol s :: ts =>
    have := decidableCanonical false ts
    inferInstanceAs (Decidable ((s = .op .sub → afterNumber = true) ∧ _))

/-- Whether the token before is an operand once a list has been read. -/
def afterNumber (before : Bool) (ts : List Token) : Bool :=
  ts.foldl (fun _ t => t.isNumber) before

theorem canonical_append {before : Bool} {ts us : List Token} :
    Canonical before (ts ++ us) ↔
      Canonical before ts ∧ Canonical (afterNumber before ts) us := by
  induction ts generalizing before with
  | nil => simp [Canonical, afterNumber]
  | cons t ts ih =>
      cases t with
      | number text =>
          simp only [List.cons_append, Canonical, ih, and_assoc]
          rfl
      | symbol s =>
          simp only [List.cons_append, Canonical, ih, and_assoc]
          rfl

theorem afterNumber_append {before : Bool} {ts us : List Token} :
    afterNumber before (ts ++ us) = afterNumber (afterNumber before ts) us :=
  List.foldl_append

/-- Behind a group there is no operand. -/
theorem afterNumber_group (before : Bool) (ts : List Token) :
    afterNumber before (.lpar :: ts ++ [.rpar]) = false := by
  rw [afterNumber_append]
  rfl

theorem afterNumber_binary (before : Bool) (ls rs : List Token) (o : Operator) :
    afterNumber before (ls ++ .op o :: rs) = afterNumber false rs := by
  rw [afterNumber_append]
  rfl

theorem canonical_group_iff {before : Bool} {ts : List Token} :
    Canonical before (.lpar :: ts ++ [.rpar]) ↔ Canonical false ts := by
  rw [canonical_append]
  simp [Canonical]

theorem canonical_binary_iff {before : Bool} {ls rs : List Token} {o : Operator} :
    Canonical before (ls ++ .op o :: rs) ↔
      Canonical before ls ∧ (o = .sub → afterNumber before ls = true) ∧
        Canonical false rs := by
  rw [canonical_append]
  simp [Canonical]

theorem Canonical.isOperand {before : Bool} {ts : List Token} {text : String}
    (h : Canonical before ts) (hmem : number text ∈ ts) :
    IsOperand text.toList := by
  induction ts generalizing before with
  | nil => cases hmem
  | cons t ts ih =>
      cases t with
      | number text' =>
          rcases List.mem_cons.mp hmem with heq | hmem
          · cases heq
            exact h.2.1
          · exact ih h.2.2 hmem
      | symbol s =>
          rcases List.mem_cons.mp hmem with heq | hmem
          · cases heq
          · exact ih h.2 hmem

/-- Behind an operand a canonical list goes on with a symbol. -/
theorem Canonical.head_isNumeral {ts : List Token} (h : Canonical true ts) :
    ∀ c ∈ (ts.flatMap chars).head?, isNumeral c = false := by
  cases ts with
  | nil => simp
  | cons t ts =>
      cases t with
      | number text => cases h.1
      | symbol s => simp [chars, isNumeral_char]

/-! ## The scan -/

/-- The characters of a canonical list are scanned as that list. -/
theorem Canonical.scanChars {before : Bool} {ts : List Token}
    (h : Canonical before ts) (position : Nat) :
    scanChars before position (ts.flatMap chars) = .ok ts := by
  induction ts generalizing before position with
  | nil => exact scanChars_nil before position
  | cons t ts ih =>
      cases t with
      | number text =>
          obtain ⟨rfl, ⟨c, run, htext, hc, hrun⟩, hts⟩ := h
          have hsymbol : symbolAt? false c = none := by
            rcases hc with rfl | hc
            · rfl
            · exact symbolAt?_numeral hc
          have hchars : (number text :: ts).flatMap chars
              = c :: (run ++ ts.flatMap chars) := by
            simp [chars, htext]
          have hback : String.ofList (c :: run) = text := by
            rw [← htext, String.ofList_toList]
          rw [hchars, scanChars_number hsymbol hc,
            takeWhile_run hrun hts.head_isNumeral,
            dropWhile_run hrun hts.head_isNumeral, ih hts, hback]
          rfl
      | symbol s =>
          have hsymbol : symbolAt? before s.char = some s :=
            symbolAt?_eq_some_iff.mpr ⟨rfl, h.1⟩
          have hchars : (symbol s :: ts).flatMap chars
              = s.char :: ts.flatMap chars := by
            simp [chars]
          rw [hchars, scanChars_symbol hsymbol, ih h.2]
          rfl

/-- What a scan gives is canonical and has the characters of the first line. A
numeral behind an operand would belong to it, so none stands there. -/
theorem canonical_of_scanChars {before : Bool} {position : Nat}
    {cs : List Char} {ts : List Token}
    (hfresh : before = true → ∀ c ∈ cs.head?, isNumeral c = false)
    (h : Token.scanChars before position cs = .ok ts) :
    Canonical before ts ∧ ts.flatMap chars = Text.firstLineChars cs := by
  fun_induction Token.scanChars before position cs generalizing ts with
  | case1 before position =>
      cases h
      exact ⟨trivial, rfl⟩
  | case2 before position c cs hline =>
      cases h
      rw [beq_iff_eq.mp hline]
      exact ⟨trivial, rfl⟩
  | case3 before position c cs hline s hsymbol ih =>
      obtain ⟨us, hus, rfl⟩ := map_eq_ok_iff.mp h
      obtain ⟨hcanonical, hchars⟩ := ih (by simp) hus
      obtain ⟨hc, hminus⟩ := symbolAt?_eq_some_iff.mp hsymbol
      refine ⟨⟨hminus, hcanonical⟩, ?_⟩
      rw [Text.firstLineChars_cons (by simpa using hline), ← hchars, hc]
      rfl
  | case4 before position c cs hline hsymbol hc run text =>
      rename_i ih
      obtain ⟨us, hus, rfl⟩ := map_eq_ok_iff.mp h
      obtain ⟨hcanonical, hchars⟩ := ih (fun _ => head_dropWhile isNumeral cs) hus
      have hc : c = '-' ∨ isNumeral c = true := by simpa using hc
      have hbefore : before = false := by
        cases before with
        | false => rfl
        | true =>
            rcases hc with rfl | hc
            · cases hsymbol
            · rw [hfresh rfl c rfl] at hc
              cases hc
      have hoperand : IsOperand (c :: run) :=
        ⟨c, run, rfl, hc, fun d hd => List.all_eq_true.mp List.all_takeWhile d hd⟩
      have htext : text.toList = c :: run := String.toList_ofList
      refine ⟨⟨hbefore, htext ▸ hoperand, hcanonical⟩, ?_⟩
      have hsplit : c :: cs = (c :: run) ++ cs.dropWhile isNumeral := by simp [run]
      rw [hsplit, Text.firstLineChars_append hoperand.newline_not_mem, ← hchars]
      simp [chars, htext]
  | case5 before position c cs hline hsymbol hc => cases h

/-- The lists that come out of a scan are the canonical ones, each out of its
own characters on the first line. -/
theorem scanChars_eq_ok_iff {position : Nat} {cs : List Char} {ts : List Token} :
    Token.scanChars false position cs = .ok ts ↔
      Canonical false ts ∧ ts.flatMap chars = Text.firstLineChars cs := by
  constructor
  · exact canonical_of_scanChars (by simp)
  · intro h
    obtain ⟨hcanonical, hchars⟩ := h
    rw [← scanChars_firstLineChars, ← hchars]
    exact hcanonical.scanChars position

theorem scan_eq_ok_iff {s : String} {ts : List Token} :
    scan s = .ok ts ↔
      Canonical false ts ∧ ts.flatMap chars = Text.firstLineChars s.toList :=
  scanChars_eq_ok_iff

end Calculator.Token
