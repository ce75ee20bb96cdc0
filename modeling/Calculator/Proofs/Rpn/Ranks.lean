import Calculator.Proofs.Rpn.Conserved
import Mathlib.Data.List.Chain

/-!
# Ranks on the stack

An operator that comes to wait has sent out whatever binds at least as tightly,
down to an opening parenthesis. So what waits between two opening parentheses
ranks the higher the later it came, and with two ranks of operators no more than
two of them stand between one opening parenthesis and the next. The stack is
therefore bounded by the levels of nesting, however long the tokens go on.
-/

namespace Calculator.Rpn

/-! ## Neighbours on the stack -/

/-- What may wait directly above what: an opening parenthesis above anything, an
operator above a symbol of lower rank. -/
def MayCover (upper lower : Symbol) : Prop :=
  upper = .lpar ∨ lower.precedence < upper.precedence

/-- Every symbol that waits may cover the one below it; the top comes first. -/
def Tiered (w : List Symbol) : Prop :=
  w.IsChain MayCover

variable {w : List Symbol}

namespace Tiered

theorem suffix {w' : List Symbol} (h : Tiered w) (hsuffix : w' <:+ w) : Tiered w' :=
  List.IsChain.suffix h hsuffix

/-- What an operator leaves waiting does not yield to it, so it ranks lower. -/
theorem advance (h : Tiered w) (t : Token) : Tiered (advance w t) := by
  cases t with
  | number text => exact h
  | symbol s =>
      cases s with
      | op o =>
          refine List.isChain_cons.mpr ⟨fun s hs => ?_, h.suffix (List.dropWhile_suffix _)⟩
          exact .inr (yields_eq_false_iff.mp (head_dropWhile (yields o) w s hs))
      | lpar => exact List.isChain_cons.mpr ⟨fun _ _ => .inl rfl, h⟩
      | rpar =>
          exact h.suffix ((List.tail_suffix _).trans (List.dropWhile_suffix _))

theorem advanceAll (h : Tiered w) (ts : List Token) : Tiered (advanceAll w ts) := by
  induction ts generalizing w with
  | nil => exact h
  | cons t ts ih => exact ih (h.advance t)

end Tiered

/-! ## Between opening parentheses -/

/-- Symbols that rank strictly lower from the top to the bottom. -/
def Descending (run : List Symbol) : Prop :=
  (run.map Symbol.precedence).Pairwise (· > ·)

theorem Tiered.descending {run : List Symbol} (h : Tiered run) (hlpar : .lpar ∉ run) :
    Descending run := by
  have hlower : ∀ upper lower, upper ∈ run → lower ∈ run → MayCover upper lower →
      upper.precedence > lower.precedence := by
    intro upper lower hupper _ hcover
    exact hcover.resolve_left fun hopen => hlpar (hopen ▸ hupper)
  have hchain := List.IsChain.imp_of_mem_imp hlower h
  exact (List.isChain_map_of_isChain Symbol.precedence (fun _ _ hlt => hlt) hchain).pairwise

/-- The rank of what waits on top. -/
def topRank : List Symbol → Nat
  | [] => 0
  | s :: _ => s.precedence

theorem topRank_le_two (w : List Symbol) : topRank w ≤ 2 := by
  cases w with
  | nil => exact Nat.zero_le 2
  | cons s w =>
      cases s with
      | op o => exact Nat.le_of_lt_succ o.precedence_lt_three
      | lpar => exact Nat.zero_le 2
      | rpar => exact Nat.zero_le 2

/-- An opening parenthesis pays for itself and for two operators above it. -/
theorem Tiered.length_le (h : Tiered w) (hrpar : .rpar ∉ w) :
    w.length ≤ 3 * w.count .lpar + topRank w := by
  induction w with
  | nil => exact Nat.zero_le _
  | cons s w ih =>
      obtain ⟨hcover, hrest⟩ := List.isChain_cons.mp h
      have hlength := ih hrest fun hmem => hrpar (List.mem_cons_of_mem s hmem)
      cases s with
      | op o =>
          have hbelow : topRank w < o.precedence := by
            cases w with
            | nil => exact o.precedence_pos
            | cons s w => exact (hcover s rfl).resolve_left (by simp)
          rw [List.length_cons, List.count_cons_of_ne (by simp)]
          show w.length + 1 ≤ 3 * w.count .lpar + o.precedence
          omega
      | lpar =>
          have htop := topRank_le_two w
          rw [List.length_cons, List.count_cons_self]
          omega
      | rpar => exact absurd List.mem_cons_self hrpar

/-! ## Along the tokens -/

/-- How many parentheses are open behind some tokens. -/
def depth (ts : List Token) : Nat :=
  ts.count .lpar - ts.count .rpar

/-- As many opening parentheses wait as are open, at any point of balanced
tokens. -/
theorem count_lpar_eq_depth {before after : List Token} (h : Balanced (before ++ after)) :
    (advanceAll [] before).count .lpar = depth before := by
  obtain ⟨e, hbefore, _⟩ := (balanced_iff_nesting.mp h).exists_of_append
  have hcount := hbefore.count
  have hwaiting : (advanceAll [] before).count .lpar = e :=
    count_lpar_advanceAll (w := []) hbefore
  rw [hwaiting, depth]
  omega

/-- **The shape of the stack**: behind any beginning of balanced tokens, as many
opening parentheses wait as are open, every run of symbols without one ranks
strictly lower from top to bottom, and there are at most three symbols for each
level of nesting and two more. -/
theorem advanceAll_shape {ts before after : List Token} (h : Balanced ts)
    (hsplit : ts = before ++ after) :
    (advanceAll [] before).count .lpar = depth before ∧
    .rpar ∉ advanceAll [] before ∧
    (∀ above run below, advanceAll [] before = above ++ run ++ below →
      .lpar ∉ run → Descending run) ∧
    (advanceAll [] before).length ≤ 3 * depth before + 2 := by
  subst hsplit
  have hcount := count_lpar_eq_depth h
  have hrpar : .rpar ∉ advanceAll [] before := rpar_not_mem_advanceAll (by simp) before
  have htiered : Tiered (advanceAll [] before) := Tiered.advanceAll .nil before
  refine ⟨hcount, hrpar, fun above run below heq hlpar => ?_, ?_⟩
  · rw [heq] at htiered
    exact Tiered.descending htiered.left_of_append.right_of_append hlpar
  · have hlength := htiered.length_le hrpar
    have htop := topRank_le_two (advanceAll [] before)
    rw [hcount] at hlength
    omega

/-- The bound is met: within `1+2*(3-4/(5+6*7))`, in front of the `7`, two
operators wait below, between and above the two parentheses. -/
theorem advanceAll_shape_full :
    let before : List Token := [.number "1", .op .add, .number "2", .op .mul, .lpar,
      .number "3", .op .sub, .number "4", .op .div, .lpar, .number "5", .op .add,
      .number "6", .op .mul]
    let waiting : List Symbol := [.op .mul, .op .add, .lpar, .op .div, .op .sub, .lpar,
      .op .mul, .op .add]
    (Balanced (before ++ [.number "7", .rpar, .rpar]) ∧ advanceAll [] before = waiting ∧
      depth before = 2 ∧ waiting.length = 3 * 2 + 2) ∧
    waiting.count .lpar = 2 ∧
    .rpar ∉ waiting ∧
    (∀ above run below, waiting = above ++ run ++ below → .lpar ∉ run → Descending run) ∧
    waiting.length ≤ 3 * 2 + 2 := by
  intro before waiting
  have hbalanced : Balanced (before ++ [.number "7", .rpar, .rpar]) := by decide
  exact ⟨⟨hbalanced, rfl, rfl, rfl⟩, advanceAll_shape hbalanced rfl⟩

end Calculator.Rpn
