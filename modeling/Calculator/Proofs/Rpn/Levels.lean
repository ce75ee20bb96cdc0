import Calculator.Proofs.Grammar.Balanced
import Calculator.Proofs.Rpn.Order

/-!
# Levels of nesting on the stack

An opening parenthesis waits until it is closed, and nothing but its closing
parenthesis takes it off. So as many of them wait as there are levels of nesting
around the next token. In balanced tokens a closing parenthesis therefore finds
an opening one, and in the end none is left; no other tokens have this property.
-/

namespace Calculator.Rpn

/-! ## One token -/

/-- Only operators make room for an operator. -/
theorem isBinary_of_yields {o : Operator} {s : Symbol} (h : yields o s = true) :
    s.isBinary = true :=
  Symbol.precedence_pos_iff.mp
    (Nat.lt_of_lt_of_le o.precedence_pos (yields_eq_true_iff.mp h))

theorem yields_lpar (o : Operator) : yields o .lpar = false :=
  Bool.eq_false_iff.mpr fun h => absurd (isBinary_of_yields h) (by decide)

theorem count_lpar_dropWhile_yields (o : Operator) (w : List Symbol) :
    (w.dropWhile (yields o)).count .lpar = w.count .lpar := by
  have hnone : (w.takeWhile (yields o)).count .lpar = 0 := by
    refine List.count_eq_zero.mpr fun hmem => ?_
    have hyields := List.all_eq_true.mp List.all_takeWhile _ hmem
    rw [yields_lpar] at hyields
    cases hyields
  have hcut := count_takeWhile_add_dropWhile (yields o) w .lpar
  rwa [hnone, Nat.zero_add] at hcut

/-- A token leads from one level to the next as it changes what waits, if the
parenthesis that it may close is there. -/
theorem nesting_advance {w : List Symbol} {t : Token} (h : t = .rpar → .lpar ∈ w) :
    Nesting (w.count .lpar) [t] ((advance w t).count .lpar) := by
  cases t with
  | number text => exact .other (by simp) (by simp) .nil
  | symbol s =>
      cases s with
      | op o =>
          rw [advance, List.count_cons_of_ne (by simp), count_lpar_dropWhile_yields]
          exact .other (by simp) (by simp) .nil
      | lpar =>
          rw [advance, List.count_cons_self]
          exact .lpar .nil
      | rpar =>
          obtain ⟨above, rest, rfl, habove⟩ := List.eq_append_cons_of_mem (h rfl)
          rw [advance_rpar habove, List.count_append, List.count_eq_zero.mpr habove,
            List.count_cons_self, Nat.zero_add]
          exact .rpar .nil

section Levels

variable {w : List Symbol} {t : Token} {ts : List Token} {e : Nat}

/-- A closing parenthesis is not met on the outermost level. -/
theorem lpar_mem_of_nesting (h : Nesting (w.count .lpar) (.rpar :: ts) e) :
    .lpar ∈ w := by
  have happend : Nesting (w.count .lpar) ([.rpar] ++ ts) e := h
  obtain ⟨d, hclose, _⟩ := happend.exists_of_append
  have hcount : d + 1 = w.count .lpar := hclose.count
  exact List.count_pos_iff.mp (by omega)

theorem nesting_tail (h : Nesting (w.count .lpar) (t :: ts) e) :
    Nesting ((advance w t).count .lpar) ts e := by
  have happend : Nesting (w.count .lpar) ([t] ++ ts) e := h
  obtain ⟨d, hhead, htail⟩ := happend.exists_of_append
  have hadvance : Nesting (w.count .lpar) [t] ((advance w t).count .lpar) :=
    nesting_advance fun ht => lpar_mem_of_nesting (ht ▸ h)
  have hd := hhead.count
  have hcount := hadvance.count
  obtain rfl : d = (advance w t).count .lpar := by omega
  exact htail

/-- As many opening parentheses wait as there are levels. -/
theorem count_lpar_advanceAll (h : Nesting (w.count .lpar) ts e) :
    (advanceAll w ts).count .lpar = e := by
  induction ts generalizing w with
  | nil => simpa using h.count.symm
  | cons t ts ih => exact ih (nesting_tail h)

end Levels

/-! ## A list of tokens -/

/-- What a conversion relies on: a closing parenthesis finds an opening one that
waits, and none waits in the end. -/
structure Settles (ts : List Token) : Prop where
  closing : ∀ before after, ts = before ++ .rpar :: after →
    .lpar ∈ advanceAll [] before
  ending : .lpar ∉ advanceAll [] ts

theorem nesting_of_closing {w : List Symbol} {ts : List Token}
    (h : ∀ before after, ts = before ++ .rpar :: after → .lpar ∈ advanceAll w before) :
    Nesting (w.count .lpar) ts ((advanceAll w ts).count .lpar) := by
  induction ts generalizing w with
  | nil => exact .nil
  | cons t ts ih =>
      have hhead : t = .rpar → .lpar ∈ w := fun ht => h [] ts (by rw [ht]; rfl)
      refine (nesting_advance hhead).append (ih fun before after hsplit => ?_)
      exact h (t :: before) after (by rw [hsplit]; rfl)

/-- A conversion can rely on the parentheses of balanced tokens and of no
others. -/
theorem settles_iff_balanced {ts : List Token} : Settles ts ↔ Balanced ts := by
  rw [balanced_iff_nesting]
  constructor
  · intro h
    have hnesting := nesting_of_closing h.closing
    rwa [List.count_eq_zero.mpr h.ending] at hnesting
  · intro h
    refine ⟨?_, List.count_eq_zero.mp (count_lpar_advanceAll (w := []) h)⟩
    rintro before after rfl
    obtain ⟨d, hbefore, hafter⟩ := h.exists_of_append
    have hcount := count_lpar_advanceAll (w := []) hbefore
    rw [← hcount] at hafter
    exact lpar_mem_of_nesting hafter

end Calculator.Rpn
