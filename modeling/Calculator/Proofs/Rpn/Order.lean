import Calculator.Grammar.Tree
import Calculator.Rpn.Conversion
import Calculator.Proofs.Rpn.Forest
import Calculator.Proofs.Run

/-!
# The conversion lists the tree in postorder

While a part of an expression is converted, what waited before it stays where
it is, and above it wait operators of the part itself. What the part has sent
out, followed by those operators, is the postorder of its tree. The next
operator behind the part binds no tighter than any of them and sends out
exactly them, because what waits below yields to no operator of that level.

Since the conversion depends on the tokens alone, no list of tokens has two
trees.
-/

namespace Calculator

/-- The least precedence of the operators of a part, its groups aside; a
factor has no operators. -/
def Level.rank : Level → Nat
  | sum => 1
  | product => 2
  | factor => 3

theorem Operator.precedence_lt_three (o : Operator) : o.precedence < 3 := by
  cases o <;> decide

namespace Rpn

/-! ## What waits below a part -/

theorem yields_eq_true_iff {o : Operator} {s : Symbol} :
    yields o s = true ↔ o.precedence ≤ s.precedence :=
  decide_eq_true_iff

theorem yields_eq_false_iff {o : Operator} {s : Symbol} :
    yields o s = false ↔ s.precedence < o.precedence := by
  rw [← Bool.not_eq_true, yields_eq_true_iff, Nat.not_le]

/-- Nothing that waits on top binds as tightly as `n`. -/
def Blocks (n : Nat) (waiting : List Symbol) : Prop :=
  ∀ s ∈ waiting.head?, s.precedence < n

theorem blocks_nil (n : Nat) : Blocks n [] := by
  simp [Blocks]

@[simp] theorem blocks_cons {n : Nat} {s : Symbol} {w : List Symbol} :
    Blocks n (s :: w) ↔ s.precedence < n := by
  simp [Blocks]

theorem Blocks.mono {m n : Nat} {w : List Symbol} (h : Blocks m w)
    (hmn : m ≤ n) : Blocks n w :=
  fun s hs => Nat.lt_of_lt_of_le (h s hs) hmn

theorem Blocks.yields_eq_false {o : Operator} {w : List Symbol}
    (h : Blocks o.precedence w) : ∀ s ∈ w.head?, yields o s = false :=
  fun s hs => yields_eq_false_iff.mpr (h s hs)

/-! ## What a token does above operators that wait -/

section Pending

variable {pending : List Operator} {w : List Symbol} {o : Operator}

theorem yields_pending (hp : ∀ p ∈ pending, o.precedence ≤ p.precedence) :
    ∀ s ∈ pending.map Symbol.op, yields o s = true := by
  intro s hs
  obtain ⟨p, hmem, rfl⟩ := List.mem_map.mp hs
  exact yields_eq_true_iff.mpr (hp p hmem)

/-- An operator sends out all that bind at least as tightly, down to one that
does not. -/
theorem advance_op (hp : ∀ p ∈ pending, o.precedence ≤ p.precedence)
    (hw : Blocks o.precedence w) :
    advance (pending.map .op ++ w) (.op o) = .op o :: w := by
  rw [advance, dropWhile_run (yields_pending hp) hw.yields_eq_false]

theorem released_op (hp : ∀ p ∈ pending, o.precedence ≤ p.precedence)
    (hw : Blocks o.precedence w) :
    released (pending.map .op ++ w) (.op o) = pending.map .op := by
  rw [released, takeWhile_run (yields_pending hp) hw.yields_eq_false]
  simp

end Pending

section Above

variable {above w : List Symbol} (h : .lpar ∉ above)

include h

theorem ne_lpar_of_mem : ∀ s ∈ above, (s != .lpar) = true := by
  intro s hs
  simpa using fun e : s = .lpar => h (e ▸ hs)

/-- A closing parenthesis sends out all that waits above the opening one. -/
theorem advance_rpar : advance (above ++ .lpar :: w) .rpar = w := by
  rw [advance, dropWhile_run (ne_lpar_of_mem h) (by simp), List.tail_cons]

theorem released_rpar :
    released (above ++ .lpar :: w) .rpar = above.map .symbol := by
  rw [released, takeWhile_run (ne_lpar_of_mem h) (by simp)]

end Above

/-! ## A part of an expression -/

/-- The conversion of `ts` over `w` leaves `w` in place, operators of
precedence `n` at least wait above it, and with them the output is the
postorder of `e`. -/
def Converts (n : Nat) (w : List Symbol) (ts : List Token) (e : Expr) : Prop :=
  ∃ pending : List Operator, (∀ p ∈ pending, n ≤ p.precedence) ∧
    advanceAll w ts = pending.map .op ++ w ∧
    releasedAll w ts ++ pending.map .op = e.postorder

/-- An operator between two parts: the part before it has gone out, and the
operator waits below the part behind it. -/
theorem Converts.binary {m n : Nat} {w : List Symbol} {ls rs : List Token}
    {l r : Expr} {o : Operator} (hw : Blocks n w) (hn : n = o.precedence)
    (hm : n ≤ m) (hl : Converts n w ls l) (hr : Converts m (.op o :: w) rs r) :
    Converts n w (ls ++ .op o :: rs) (.binary o l r) := by
  subst hn
  obtain ⟨before, hbefore, hadvance, hreleased⟩ := hl
  obtain ⟨behind, hbehind, hadvance', hreleased'⟩ := hr
  refine ⟨behind ++ [o], ?_, ?_, ?_⟩
  · intro p hp
    rcases List.mem_append.mp hp with hp | hp
    · exact Nat.le_trans hm (hbehind p hp)
    · cases List.mem_singleton.mp hp
      exact Nat.le_refl _
  · have hpending : (behind ++ [o]).map Symbol.op ++ w
        = behind.map .op ++ .op o :: w := by simp
    rw [hpending, advanceAll_append, hadvance, advanceAll_cons,
      advance_op hbefore hw, hadvance']
  · rw [releasedAll_append, hadvance, releasedAll, advance_op hbefore hw,
      released_op hbefore hw, Expr.postorder, ← hreleased, ← hreleased']
    simp

/-- Every part of an expression is converted to the postorder of its tree. -/
theorem converts_of_reads {level : Level} {ts : List Token} {e : Expr}
    (h : Reads level ts e) {w : List Symbol} (hw : Blocks level.rank w) :
    Converts level.rank w ts e := by
  induction h generalizing w with
  | number text =>
      exact ⟨[], by simp, rfl, by simp [releasedAll, released, Expr.postorder]⟩
  | group _ ih =>
      -- the parenthesis blocks every operator of the group
      obtain ⟨pending, _, hadvance, hreleased⟩ := ih (w := .lpar :: w)
        (blocks_cons.mpr (by decide))
      refine ⟨[], by simp, ?_, ?_⟩
      · rw [List.cons_append, advanceAll_cons, advanceAll_append]
        show advanceAll (advanceAll (.lpar :: w) _) _ = _
        rw [hadvance, advanceAll_cons, advance_rpar (by simp)]
        rfl
      · rw [List.cons_append, releasedAll, releasedAll_append]
        show (releasedAll (.lpar :: w) _ ++
          releasedAll (advanceAll (.lpar :: w) _) _) ++ _ = _
        rw [hadvance, releasedAll, released_rpar (by simp), ← hreleased]
        simp [releasedAll]
  | ofFactor _ ih =>
      obtain ⟨pending, hpending, hrest⟩ := ih (hw.mono (by decide))
      exact ⟨pending, fun p hp => Nat.le_trans (by decide) (hpending p hp), hrest⟩
  | product o times _ _ ihl ihr =>
      have ho : Level.product.rank = o.precedence := by
        rcases times with rfl | rfl <;> rfl
      exact Converts.binary hw ho (by decide) (ihl hw)
        (ihr (blocks_cons.mpr o.precedence_lt_three))
  | ofProduct _ ih =>
      obtain ⟨pending, hpending, hrest⟩ := ih (hw.mono (by decide))
      exact ⟨pending, fun p hp => Nat.le_trans (by decide) (hpending p hp), hrest⟩
  | sum o plus _ _ ihl ihr =>
      have ho : Level.sum.rank = o.precedence := by
        rcases plus with rfl | rfl <;> rfl
      refine Converts.binary hw ho (by decide) (ihl hw)
        (ihr (blocks_cons.mpr ?_))
      rw [Symbol.precedence, ← ho]
      decide

end Rpn

/-! ## A whole expression -/

namespace Reads

/-- The conversion lists the tree of an expression in postorder. -/
theorem ofInfix_eq {level : Level} {ts : List Token} {e : Expr}
    (h : Reads level ts e) : Rpn.ofInfix ts = e.postorder := by
  obtain ⟨pending, _, hadvance, hreleased⟩ :=
    Rpn.converts_of_reads h.toSum (Rpn.blocks_nil _)
  rw [Rpn.ofInfix, hadvance, ← hreleased]
  simp

/-- The tokens of an expression determine its tree. -/
theorem unique {level level' : Level} {ts : List Token} {e e' : Expr}
    (h : Reads level ts e) (h' : Reads level' ts e') : e = e' :=
  Expr.postorder_injective (h.ofInfix_eq.symm.trans h'.ofInfix_eq)

end Reads

end Calculator
