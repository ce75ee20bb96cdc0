import Calculator.Token

/-!
# Balanced parentheses

Tokens are balanced if no beginning of them closes more parentheses than it
opens and all of them close as many as they open; they need not form an
expression. The parenthesis that closes another one is the first behind it with
balanced tokens between the two, and within balanced tokens it always exists.

Read from left to right, each parenthesis leads one level in or one level out.
Tokens are balanced if they can be read from the outermost level, and lead back
to it.
-/

namespace Calculator

/-- No beginning closes more than it opens, and in the end all is closed. -/
structure Balanced (ts : List Token) : Prop where
  count_take : ∀ n, (ts.take n).count .rpar ≤ (ts.take n).count .lpar
  count : ts.count .rpar = ts.count .lpar

namespace Balanced

theorem nil : Balanced [] where
  count_take n := by simp
  count := rfl

variable {ts us : List Token}

theorem append (hts : Balanced ts) (hus : Balanced us) : Balanced (ts ++ us) where
  count_take n := by
    have hfront := hts.count_take n
    have hback := hus.count_take (n - ts.length)
    rw [List.take_append, List.count_append, List.count_append]
    omega
  count := by
    rw [List.count_append, List.count_append, hts.count, hus.count]

/-- A token that is no parenthesis. -/
theorem single {t : Token} (hl : t ≠ .lpar) (hr : t ≠ .rpar) : Balanced [t] where
  count_take n := by
    cases n <;> simp [hr]
  count := by simp [hl, hr]

theorem group (h : Balanced ts) : Balanced (.lpar :: ts ++ [.rpar]) where
  count_take n := by
    cases n with
    | zero => simp
    | succ n =>
        have hfront := h.count_take n
        have hback : ([Token.rpar].take (n - ts.length)).count .rpar ≤ 1 :=
          Nat.le_trans List.count_le_length (List.length_take_le' _ _)
        rw [List.cons_append, List.take_succ_cons, List.take_append,
          List.count_cons_of_ne (by simp), List.count_cons_self, List.count_append,
          List.count_append]
        omega
  count := by
    rw [List.cons_append, List.count_cons_of_ne (by simp), List.count_cons_self,
      List.count_append, List.count_append, h.count]
    rfl

theorem iff_forall_lt :
    Balanced ts ↔
      (∀ n < ts.length, (ts.take n).count .rpar ≤ (ts.take n).count .lpar) ∧
        ts.count .rpar = ts.count .lpar := by
  constructor
  · intro h
    exact ⟨fun n _ => h.count_take n, h.count⟩
  · intro h
    obtain ⟨hfront, htotal⟩ := h
    refine ⟨fun n => ?_, htotal⟩
    rcases Nat.lt_or_ge n ts.length with hn | hn
    · exact hfront n hn
    · rw [List.take_of_length_le hn]
      exact Nat.le_of_eq htotal

instance decidable (ts : List Token) : Decidable (Balanced ts) :=
  decidable_of_iff' _ iff_forall_lt

/-! ## Closing parentheses -/

/-- Tokens that close more than they open, by more than `depth`, close what was
opened `depth` levels outside. -/
theorem exists_close {depth : Nat} (h : ts.count .lpar + depth < ts.count .rpar) :
    ∃ inner rest, ts = inner ++ .rpar :: rest ∧
      (∀ n, (inner.take n).count .rpar ≤ (inner.take n).count .lpar + depth) ∧
      inner.count .rpar = inner.count .lpar + depth := by
  induction ts generalizing depth with
  | nil => simp at h
  | cons t ts ih =>
      by_cases hclose : t = .rpar ∧ depth = 0
      · obtain ⟨rfl, rfl⟩ := hclose
        exact ⟨[], ts, rfl, by simp, rfl⟩
      · -- the depth behind the token
        obtain ⟨d, hd⟩ : ∃ d, d + (if t == .rpar then 1 else 0)
            = depth + (if t == .lpar then 1 else 0) := by
          refine ⟨depth + (if t == .lpar then 1 else 0)
            - (if t == .rpar then 1 else 0), Nat.sub_add_cancel ?_⟩
          by_cases hr : t = .rpar
          · subst hr
            simp at hclose ⊢
            omega
          · simp [hr]
        simp only [List.count_cons] at h
        obtain ⟨inner, rest, rfl, htake, hcount⟩ := @ih d (by omega)
        refine ⟨t :: inner, rest, rfl, fun n => ?_, ?_⟩
        · cases n with
          | zero => simp
          | succ n =>
              have := htake n
              simp only [List.take_succ_cons, List.count_cons]
              omega
        · simp only [List.count_cons]
          omega

end Balanced

/-! ## Pairs of parentheses -/

/-- `Pairs ts i j`: the parenthesis opened at `i` is closed at `j`. -/
def Pairs (ts : List Token) (i j : Nat) : Prop :=
  ∃ before inner after, ts = before ++ .lpar :: inner ++ .rpar :: after ∧
    Balanced inner ∧ before.length = i ∧ i + inner.length + 1 = j

/-- The parenthesis opened at `i` is never closed. -/
def NeverClosed (ts : List Token) (i : Nat) : Prop :=
  ts[i]? = some .lpar ∧ ∀ j, ¬ Pairs ts i j

variable {before us : List Token}

/-- A list can be cut at any of its tokens. -/
theorem exists_split {k : Nat} {t : Token} (h : us[k]? = some t) :
    ∃ front after, us = front ++ t :: after ∧ front.length = k := by
  obtain ⟨hk, ht⟩ := List.getElem?_eq_some_iff.mp h
  refine ⟨us.take k, us.drop (k + 1), ?_, List.length_take_of_le (Nat.le_of_lt hk)⟩
  rw [← ht, ← List.drop_eq_getElem_cons hk, List.take_append_drop]

/-- What is opened within balanced tokens is closed within them. -/
theorem Balanced.exists_pair {after : List Token}
    (h : Balanced (us ++ .lpar :: after)) :
    ∃ inner rest, after = inner ++ .rpar :: rest ∧ Balanced inner := by
  have hfront : us.count .rpar ≤ us.count .lpar := by
    have := h.count_take us.length
    rwa [List.take_left] at this
  have hmore : after.count .lpar + 0 < after.count .rpar := by
    have htotal := h.count
    rw [List.count_append, List.count_append, List.count_cons_self,
      List.count_cons_of_ne (by simp)] at htotal
    omega
  obtain ⟨inner, rest, hsplit, htake, hcount⟩ := exists_close hmore
  exact ⟨inner, rest, hsplit, htake, hcount⟩

/-- A parenthesis with balanced tokens behind it, up to the end, is never
closed. -/
theorem Balanced.neverClosed (h : Balanced us) :
    NeverClosed (before ++ .lpar :: us) before.length := by
  refine ⟨by simp, fun j hpair => ?_⟩
  obtain ⟨before', inner, after, hsplit, hinner, hlength, _⟩ := hpair
  rw [List.append_assoc] at hsplit
  obtain ⟨_, hrest⟩ := List.append_inj hsplit hlength.symm
  have hus : us = inner ++ .rpar :: after := (List.cons.inj hrest).2
  -- the first tokens, up to the closing one, close one more than they open
  have hfront := h.count_take (inner.length + 1)
  have htake : us.take (inner.length + 1) = inner ++ [.rpar] := by
    rw [hus, List.take_append, List.take_of_length_le (Nat.le_succ _)]
    simp
  have hclose : [Token.rpar].count .rpar = 1 ∧ [Token.rpar].count .lpar = 0 := ⟨rfl, rfl⟩
  rw [htake, List.count_append, List.count_append, hinner.count] at hfront
  omega

/-- Every parenthesis opened behind it is closed. -/
theorem Balanced.le_of_neverClosed (h : Balanced us) {j : Nat}
    (hj : NeverClosed (before ++ .lpar :: us) j) : j ≤ before.length := by
  obtain ⟨hopen, hnever⟩ := hj
  refine Nat.le_of_not_lt fun hlt => ?_
  obtain ⟨k, rfl⟩ := Nat.exists_eq_add_of_lt hlt
  have hget : us[k]? = some .lpar := by
    rw [List.getElem?_append_right (by omega)] at hopen
    simpa [Nat.add_assoc] using hopen
  obtain ⟨front, after, rfl, hfront⟩ := exists_split hget
  obtain ⟨inner, rest, rfl, hinner⟩ := h.exists_pair
  refine hnever _ ⟨before ++ .lpar :: front, inner, rest, by simp, hinner, ?_, rfl⟩
  rw [List.length_append, List.length_cons, hfront, Nat.add_assoc]

/-! ## Levels of nesting -/

/-- `Nesting d ts e`: the tokens `ts` lead from `d` levels of parentheses to `e`
levels, and never out of the last one. -/
inductive Nesting : Nat → List Token → Nat → Prop where
  | nil {d : Nat} : Nesting d [] d
  | lpar {d e : Nat} {ts : List Token} :
      Nesting (d + 1) ts e → Nesting d (.lpar :: ts) e
  | rpar {d e : Nat} {ts : List Token} :
      Nesting d ts e → Nesting (d + 1) (.rpar :: ts) e
  | other {d e : Nat} {t : Token} {ts : List Token} (hl : t ≠ .lpar) (hr : t ≠ .rpar) :
      Nesting d ts e → Nesting d (t :: ts) e

namespace Nesting

variable {d e f : Nat} {ts us : List Token}

theorem append (h : Nesting d ts e) (hus : Nesting e us f) : Nesting d (ts ++ us) f := by
  induction h with
  | nil => exact hus
  | lpar _ ih => exact .lpar (ih hus)
  | rpar _ ih => exact .rpar (ih hus)
  | other hl hr _ ih => exact .other hl hr (ih hus)

/-- Between two parts there is a level that one leads to and the other starts
from. -/
theorem exists_of_append (h : Nesting d (ts ++ us) f) :
    ∃ e, Nesting d ts e ∧ Nesting e us f := by
  induction ts generalizing d with
  | nil => exact ⟨d, .nil, h⟩
  | cons t ts ih =>
      cases h with
      | lpar h =>
          obtain ⟨e, hts, hus⟩ := ih h
          exact ⟨e, .lpar hts, hus⟩
      | rpar h =>
          obtain ⟨e, hts, hus⟩ := ih h
          exact ⟨e, .rpar hts, hus⟩
      | other hl hr h =>
          obtain ⟨e, hts, hus⟩ := ih h
          exact ⟨e, .other hl hr hts, hus⟩

/-- The level gained is what is opened and not closed. -/
theorem count (h : Nesting d ts e) : e + ts.count .rpar = d + ts.count .lpar := by
  induction h with
  | nil => rfl
  | lpar _ ih =>
      rw [List.count_cons_self, List.count_cons_of_ne (by simp)]
      omega
  | rpar _ ih =>
      rw [List.count_cons_self, List.count_cons_of_ne (by simp)]
      omega
  | other hl hr _ ih => rwa [List.count_cons_of_ne hl, List.count_cons_of_ne hr]

end Nesting

/-- Tokens can be read from a level if no beginning leads out of it. -/
theorem exists_nesting {d : Nat} {ts : List Token}
    (h : ∀ n, (ts.take n).count .rpar ≤ (ts.take n).count .lpar + d) :
    ∃ e, Nesting d ts e := by
  induction ts generalizing d with
  | nil => exact ⟨d, .nil⟩
  | cons t ts ih =>
      have hrest : ∀ n, (ts.take n).count .rpar + (if t == .rpar then 1 else 0)
          ≤ (ts.take n).count .lpar + (if t == .lpar then 1 else 0) + d := by
        intro n
        have hn := h (n + 1)
        rwa [List.take_succ_cons, List.count_cons, List.count_cons] at hn
      by_cases hl : t = .lpar
      · subst hl
        obtain ⟨e, he⟩ := ih (d := d + 1) fun n => by
          simpa [Nat.add_assoc, Nat.add_comm 1] using hrest n
        exact ⟨e, .lpar he⟩
      · by_cases hr : t = .rpar
        · subst hr
          cases d with
          | zero => simpa using hrest 0
          | succ d =>
              obtain ⟨e, he⟩ := ih (d := d) fun n => by
                simpa [← Nat.add_assoc] using hrest n
              exact ⟨e, .rpar he⟩
        · obtain ⟨e, he⟩ := ih (d := d) fun n => by simpa [hl, hr] using hrest n
          exact ⟨e, .other hl hr he⟩

/-- Balanced tokens lead from the outermost level back to it. -/
theorem balanced_iff_nesting {ts : List Token} : Balanced ts ↔ Nesting 0 ts 0 := by
  constructor
  · intro h
    obtain ⟨e, he⟩ := exists_nesting (d := 0) h.count_take
    have hcount := he.count
    have htotal := h.count
    obtain rfl : e = 0 := by omega
    exact he
  · intro h
    refine ⟨fun n => ?_, by simpa using h.count⟩
    rw [← List.take_append_drop n ts] at h
    obtain ⟨e, hfront, _⟩ := h.exists_of_append
    have hcount := hfront.count
    omega

end Calculator
