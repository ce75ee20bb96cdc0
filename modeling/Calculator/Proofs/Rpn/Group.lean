import Calculator.Proofs.Rpn.Levels

/-!
# A group is converted by itself

The opening parenthesis of a group keeps apart what waits below it and what waits
above it. Inside the group no token reaches below, since the closing parentheses
there belong to groups within the group. So the group is converted as if it stood
alone; its closing parenthesis sends out what it has left, and then the tokens
behind it find the stack as it was before the group.
-/

namespace Calculator.Rpn

section Above

variable {u : List Symbol} (w : List Symbol)

/-! ## Tokens inside a group -/

theorem released_above (t : Token) :
    released (u ++ .lpar :: w) t = released u t := by
  cases t with
  | number text => rfl
  | symbol s =>
      cases s with
      | op o => rw [released, released, takeWhile_append_cons (yields_lpar o)]
      | lpar => rfl
      | rpar => rw [released, released, takeWhile_append_cons (by simp)]

/-- A token works on what waits above the parenthesis, unless it closes it. -/
theorem advance_above {t : Token} (h : t = .rpar → .lpar ∈ u) :
    advance (u ++ .lpar :: w) t = advance u t ++ .lpar :: w := by
  cases t with
  | number text => rfl
  | symbol s =>
      cases s with
      | op o =>
          rw [advance, advance, dropWhile_append_cons (yields_lpar o), List.cons_append]
      | lpar => rfl
      | rpar =>
          obtain ⟨above, rest, rfl, habove⟩ := List.eq_append_cons_of_mem (h rfl)
          rw [advance_rpar habove, List.append_assoc, List.cons_append, advance_rpar habove]

section Inside

variable {ts : List Token} {e : Nat} (h : Nesting (u.count .lpar) ts e)

include h

theorem advanceAll_above :
    advanceAll (u ++ .lpar :: w) ts = advanceAll u ts ++ .lpar :: w := by
  induction ts generalizing u with
  | nil => rfl
  | cons t ts ih =>
      have hopen : t = .rpar → .lpar ∈ u := fun ht => lpar_mem_of_nesting (ht ▸ h)
      rw [advanceAll_cons, advance_above w hopen, ih (nesting_tail h), advanceAll_cons]

theorem releasedAll_above :
    releasedAll (u ++ .lpar :: w) ts = releasedAll u ts := by
  induction ts generalizing u with
  | nil => rfl
  | cons t ts ih =>
      have hopen : t = .rpar → .lpar ∈ u := fun ht => lpar_mem_of_nesting (ht ▸ h)
      rw [releasedAll, released_above, advance_above w hopen, ih (nesting_tail h), releasedAll]

end Inside

end Above

/-! ## A whole group -/

section Group

variable (w : List Symbol) {ts : List Token} (h : Balanced ts)

include h

/-- Behind its opening parenthesis a group starts from nothing. -/
theorem advanceAll_lpar_cons :
    advanceAll (.lpar :: w) ts = advanceAll [] ts ++ .lpar :: w :=
  advanceAll_above (u := []) w (balanced_iff_nesting.mp h)

theorem releasedAll_lpar_cons : releasedAll (.lpar :: w) ts = releasedAll [] ts :=
  releasedAll_above (u := []) w (balanced_iff_nesting.mp h)

/-- A group leaves what waits as it was. -/
theorem advanceAll_group : advanceAll w (.lpar :: ts ++ [.rpar]) = w := by
  have hclosed : .lpar ∉ advanceAll [] ts := (settles_iff_balanced.mpr h).ending
  rw [List.cons_append, advanceAll_cons, advanceAll_append]
  show advanceAll (advanceAll (.lpar :: w) ts) [.rpar] = w
  rw [advanceAll_lpar_cons w h]
  exact advance_rpar hclosed

/-- A group sends out the conversion of its tokens. -/
theorem releasedAll_group : releasedAll w (.lpar :: ts ++ [.rpar]) = ofInfix ts := by
  have hclosed : .lpar ∉ advanceAll [] ts := (settles_iff_balanced.mpr h).ending
  rw [List.cons_append, releasedAll, releasedAll_append]
  show releasedAll (.lpar :: w) ts ++ releasedAll (advanceAll (.lpar :: w) ts) [.rpar] = _
  rw [advanceAll_lpar_cons w h, releasedAll_lpar_cons w h, releasedAll,
    released_rpar hclosed, releasedAll, List.append_nil, ofInfix]

end Group

/-- **A group is converted by itself**: its conversion stands in one piece
between two lists of tokens that do not depend on it, and these two together are
the conversion of what is left without the group. -/
theorem ofInfix_group (a c : List Token) :
    ∃ p q, p ++ q = ofInfix (a ++ c) ∧
      ∀ b, Balanced b → ofInfix (a ++ .lpar :: b ++ .rpar :: c) = p ++ ofInfix b ++ q := by
  refine ⟨releasedAll [] a,
    releasedAll (advanceAll [] a) c ++ (advanceAll [] (a ++ c)).map .symbol, ?_, ?_⟩
  · rw [ofInfix, releasedAll_append, List.append_assoc]
  · intro b hb
    have hcut : a ++ .lpar :: b ++ .rpar :: c = a ++ ((.lpar :: b ++ [.rpar]) ++ c) := by
      simp
    have hwaiting : advanceAll [] (a ++ ((.lpar :: b ++ [.rpar]) ++ c))
        = advanceAll [] (a ++ c) := by
      rw [advanceAll_append, advanceAll_append, advanceAll_group _ hb, advanceAll_append]
    rw [hcut, ofInfix, hwaiting, releasedAll_append, releasedAll_append,
      releasedAll_group _ hb, advanceAll_group _ hb]
    simp only [List.append_assoc]

/-- In `2*(…)+3` a sum, and tokens that are no expression, come out between `2` and
`* 3 +`. -/
theorem ofInfix_group_two_contents :
    let a : List Token := [.number "2", .op .mul]
    let c : List Token := [.op .add, .number "3"]
    let sum : List Token := [.number "1", .op .add, .number "4"]
    let strange : List Token := [.op .mul, .lpar, .op .add, .rpar, .number "1"]
    let p : List Token := [.number "2"]
    let q : List Token := [.op .mul, .number "3", .op .add]
    (Balanced sum ∧ Balanced strange) ∧
    p ++ q = ofInfix (a ++ c) ∧
    ofInfix (a ++ .lpar :: sum ++ .rpar :: c)
      = p ++ [.number "1", .number "4", .op .add] ++ q ∧
    ofInfix (a ++ .lpar :: strange ++ .rpar :: c)
      = p ++ [.op .add, .number "1", .op .mul] ++ q := by
  intro a c sum strange p q
  have hsum : Balanced sum := by decide
  have hstrange : Balanced strange := by decide
  obtain ⟨p', q', hrest, hgroup⟩ := ofInfix_group a c
  have hsplit : p' ++ q' = p ++ q := hrest
  have hconverted : p' ++ [.number "1", .number "4", .op .add] ++ q'
      = p ++ [.number "1", .number "4", .op .add] ++ q := (hgroup sum hsum).symm
  -- behind `2` stands the group with it and `*` without it, so the cut is there
  obtain ⟨rfl, rfl⟩ : p' = p ∧ q' = q := by
    rcases p' with _ | ⟨t, _ | ⟨t', p'⟩⟩
    · simp [p] at hconverted
    · simpa [p] using hconverted
    · simp only [p, q, List.cons_append, List.nil_append, List.cons.injEq] at hconverted hsplit
      have hmul : t' = .op .mul := hsplit.2.1
      have hone : t' = .number "1" := hconverted.2.1
      rw [hmul] at hone
      cases hone
  exact ⟨⟨hsum, hstrange⟩, hrest, hgroup sum hsum, hgroup strange hstrange⟩

end Calculator.Rpn
