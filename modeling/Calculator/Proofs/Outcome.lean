/-!
# Steps that may fail

What it means for one step after another to succeed, and where the error
comes from if they do not: from the first step that fails.
-/

namespace Calculator

variable {ε α β : Type}

theorem bind_eq_ok_iff {x : Except ε α} {f : α → Except ε β} {b : β} :
    x >>= f = .ok b ↔ ∃ a, x = .ok a ∧ f a = .ok b := by
  cases x with
  | error e =>
      constructor
      · intro h
        cases h
      · intro h
        obtain ⟨a, h, _⟩ := h
        cases h
  | ok a =>
      constructor
      · intro h
        exact ⟨a, rfl, h⟩
      · intro h
        obtain ⟨a', h, h'⟩ := h
        cases h
        exact h'

theorem bind_eq_error_iff {x : Except ε α} {f : α → Except ε β} {e : ε} :
    x >>= f = .error e ↔ x = .error e ∨ ∃ a, x = .ok a ∧ f a = .error e := by
  cases x with
  | error e' =>
      constructor
      · intro h
        cases h
        exact .inl rfl
      · intro h
        rcases h with h | ⟨a, h, _⟩
        · cases h
          rfl
        · cases h
  | ok a =>
      constructor
      · intro h
        exact .inr ⟨a, rfl, h⟩
      · intro h
        rcases h with h | ⟨a', h, h'⟩
        · cases h
        · cases h
          exact h'

theorem map_eq_ok_iff {x : Except ε α} {f : α → β} {b : β} :
    f <$> x = .ok b ↔ ∃ a, x = .ok a ∧ f a = b := by
  cases x with
  | error e => simp [Functor.map, Except.map]
  | ok a => simp [Functor.map, Except.map]

theorem map_eq_error_iff {x : Except ε α} {f : α → β} {e : ε} :
    f <$> x = .error e ↔ x = .error e := by
  cases x with
  | error e' => simp [Functor.map, Except.map]
  | ok a => simp [Functor.map, Except.map]

theorem mapError_eq_ok_iff {ε' : Type} {x : Except ε α} {f : ε → ε'} {a : α} :
    x.mapError f = .ok a ↔ x = .ok a := by
  cases x with
  | error e =>
      constructor
      · intro h
        cases h
      · intro h
        cases h
  | ok b =>
      constructor
      · intro h
        cases h
        rfl
      · intro h
        cases h
        rfl

theorem mapError_eq_error_iff {ε' : Type} {x : Except ε α} {f : ε → ε'} {e' : ε'} :
    x.mapError f = .error e' ↔ ∃ e, x = .error e ∧ f e = e' := by
  cases x with
  | error e =>
      constructor
      · intro h
        exact ⟨e, rfl, Except.error.inj h⟩
      · intro h
        obtain ⟨e, h, rfl⟩ := h
        cases h
        rfl
  | ok a =>
      constructor
      · intro h
        cases h
      · intro h
        obtain ⟨e, h, _⟩ := h
        cases h

theorem toOption_eq_some_iff {x : Except ε α} {a : α} :
    x.toOption = some a ↔ x = .ok a := by
  cases x with
  | error e =>
      constructor
      · intro h
        cases h
      · intro h
        cases h
  | ok b =>
      constructor
      · intro h
        cases h
        rfl
      · intro h
        cases h
        rfl

/-- A loop fails at its first step that fails. -/
theorem foldlM_eq_error_iff {f : β → α → Except ε β} {b : β} {xs : List α} {e : ε} :
    xs.foldlM f b = .error e ↔
      ∃ before x after c, xs = before ++ x :: after ∧
        before.foldlM f b = .ok c ∧ f c x = .error e := by
  induction xs generalizing b with
  | nil =>
      constructor
      · intro h
        cases h
      · intro h
        obtain ⟨before, x, after, c, h, _⟩ := h
        simp at h
  | cons y ys ih =>
      rw [List.foldlM_cons, bind_eq_error_iff]
      constructor
      · intro h
        rcases h with h | ⟨c, hy, h⟩
        · exact ⟨[], y, ys, b, rfl, rfl, h⟩
        · obtain ⟨before, x, after, d, rfl, hb, hx⟩ := ih.mp h
          refine ⟨y :: before, x, after, d, rfl, ?_, hx⟩
          rw [List.foldlM_cons, bind_eq_ok_iff]
          exact ⟨c, hy, hb⟩
      · intro h
        obtain ⟨before, x, after, d, hsplit, hb, hx⟩ := h
        cases before with
        | nil =>
            cases hsplit
            cases hb
            exact .inl hx
        | cons z before =>
            cases hsplit
            rw [List.foldlM_cons, bind_eq_ok_iff] at hb
            obtain ⟨c, hy, hb⟩ := hb
            exact .inr ⟨c, hy, ih.mpr ⟨before, x, after, d, rfl, hb, hx⟩⟩

/-- There is one first element without a property. -/
theorem eq_of_append_cons_eq {P : α → Prop} {before before' after after' : List α}
    {x x' : α} (h : before ++ x :: after = before' ++ x' :: after')
    (hbefore : ∀ y ∈ before, P y) (hx : ¬ P x)
    (hbefore' : ∀ y ∈ before', P y) (hx' : ¬ P x') : x = x' := by
  induction before generalizing before' with
  | nil =>
      cases before' with
      | nil => exact (List.cons.inj h).1
      | cons y before' =>
          rw [(List.cons.inj h).1] at hx
          exact absurd (hbefore' y (by simp)) hx
  | cons y before ih =>
      cases before' with
      | nil =>
          rw [← (List.cons.inj h).1] at hx'
          exact absurd (hbefore y (by simp)) hx'
      | cons y' before' =>
          exact ih (List.cons.inj h).2
            (fun z hz => hbefore z (List.mem_cons_of_mem y hz))
            (fun z hz => hbefore' z (List.mem_cons_of_mem y' hz))

end Calculator
