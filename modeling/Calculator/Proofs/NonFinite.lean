import Calculator.Proofs.Double.Arithmetic
import Calculator.Proofs.Value
import Mathlib.Data.List.Induction

/-!
# Where values that are not finite come from

Operands are only read as finite doubles, and no zero divides. So as long as the stack
holds finite doubles, a value that is not finite can only come onto it as an infinity,
by an operator that overflows. A result that is no number has such an infinity before
it on the stack, and below it in the tree of the input.
-/

namespace Calculator

theorem isFinite_of_readNumber {text : String} {v : Float} (h : readNumber text = .ok v) :
    v.isFinite = true := by
  unfold readNumber at h
  split at h
  · cases h
  · split at h
    · cases h
      assumption
    · cases h

theorem isFinite_eq_false_of_isNaN {v : Float} (h : v.isNaN = true) : v.isFinite = false := by
  change v.toModel.unpack.isNaN = true at h
  show v.toModel.unpack.isFinite = false
  generalize v.toModel.unpack = u at h
  cases u with
  | notANumber => rfl
  | infinity _ => cases h
  | zero _ => cases h
  | finite _ _ _ _ => cases h

theorem Operator.Overflows.isNaN_eq_false {o : Operator} {a b v : Float}
    (h : o.Overflows a b v) : v.isNaN = false := by
  obtain ⟨negative, rfl⟩ := h.infinite
  cases negative <;> decide

namespace Rpn

/-! ## One token -/

/-- `Obeys stack t v rest`: with `stack` left by the tokens before it, the token `t` puts
`v` on top of `rest`. -/
inductive Obeys (stack : List Float) : Token → Float → List Float → Prop where
  | operand {text : String} {v : Float} (h : readNumber text = .ok v) :
      Obeys stack (.number text) v stack
  | operator {o : Operator} {a b v : Float} {rest : List Float}
      (hstack : stack = b :: a :: rest) (h : o.apply a b = .ok v) :
      Obeys stack (.op o) v rest

theorem push_eq_ok_iff {stack stack' : List Float} {t : Token} :
    push stack t = .ok stack' ↔ ∃ v rest, stack' = v :: rest ∧ Obeys stack t v rest := by
  constructor
  · intro h
    cases t with
    | number text =>
        obtain ⟨v, hv, rfl⟩ := map_eq_ok_iff.mp h
        exact ⟨v, stack, rfl, .operand hv⟩
    | symbol s =>
        match stack, h with
        | b :: a :: rest, h =>
            obtain ⟨v, hv, rfl⟩ := map_eq_ok_iff.mp h
            cases s with
            | op o => exact ⟨v, rest, rfl, .operator rfl hv⟩
            | lpar => cases hv
            | rpar => cases hv
  · intro h
    obtain ⟨v, rest, rfl, h⟩ := h
    cases h with
    | operand hv => exact map_eq_ok_iff.mpr ⟨v, hv, rfl⟩
    | operator hstack hv =>
        subst hstack
        exact map_eq_ok_iff.mpr ⟨v, hv, rfl⟩

theorem Obeys.mem_of_mem {stack rest : List Float} {t : Token} {v w : Float}
    (h : Obeys stack t v rest) (hw : w ∈ rest) : w ∈ stack := by
  cases h with
  | operand _ => exact hw
  | operator hstack _ =>
      rw [hstack]
      exact List.mem_cons_of_mem _ (List.mem_cons_of_mem _ hw)

/-! ## All values that are pushed -/

/-- `Pushes ts before t stack v`: in computing `ts` the tokens `before` leave `stack`, and
the token `t` after them puts `v` on top. -/
structure Pushes (ts before : List Token) (t : Token) (stack : List Float) (v : Float) :
    Prop where
  split : before ++ [t] <+: ts
  reached : pushAll [] before = .ok stack
  pushed : ∃ rest, push stack t = .ok (v :: rest)

section Pushes

variable {ts before : List Token} {t : Token} {stack : List Float} {v : Float}

theorem Pushes.obeys (h : Pushes ts before t stack v) : ∃ rest, Obeys stack t v rest := by
  obtain ⟨_, hpush⟩ := h.pushed
  obtain ⟨w, rest, heq, hobeys⟩ := push_eq_ok_iff.mp hpush
  cases heq
  exact ⟨_, hobeys⟩

theorem Pushes.mono (h : Pushes ts before t stack v) {us : List Token} (hbegins : ts <+: us) :
    Pushes us before t stack v :=
  ⟨h.split.trans hbegins, h.reached, h.pushed⟩

/-- The stack holds values that were pushed. -/
theorem finite_of_pushAll (h : pushAll [] ts = .ok stack)
    (hpushed : ∀ before t stack' v, Pushes ts before t stack' v → v.isFinite = true) :
    ∀ w ∈ stack, w.isFinite = true := by
  induction ts using List.reverseRecOn generalizing stack with
  | nil =>
      cases h
      simp
  | append_singleton init t ih =>
      rw [pushAll_append, bind_eq_ok_iff] at h
      obtain ⟨middle, hinit, hlast⟩ := h
      rw [pushAll_cons, bind_eq_ok_iff] at hlast
      obtain ⟨_, hpush, hnil⟩ := hlast
      cases hnil
      obtain ⟨v, rest, rfl, hobeys⟩ := push_eq_ok_iff.mp hpush
      have hmiddle := ih hinit fun before t' stack' v' h' =>
        hpushed before t' stack' v' (h'.mono (List.prefix_append init [t]))
      intro w hw
      rcases List.mem_cons.mp hw with rfl | hw
      · exact hpushed init t middle w ⟨List.prefix_rfl, hinit, rest, hpush⟩
      · exact hmiddle w (hobeys.mem_of_mem hw)

end Pushes

/-! ## The first value that is not finite -/

/-- `FirstNonFinite ts before t stack v`: in computing `ts` the token `t` after `before`
pushes `v`, the first value that is not finite. -/
structure FirstNonFinite (ts before : List Token) (t : Token) (stack : List Float)
    (v : Float) : Prop extends Pushes ts before t stack v where
  not_finite : v.isFinite = false
  earlier : ∀ before' t' stack' v', Pushes before before' t' stack' v' → v'.isFinite = true

/-- If a value is not finite, there is a first one, this one or one before it. -/
theorem Pushes.exists_first {ts before : List Token} {t : Token} {stack : List Float}
    {v : Float} (h : Pushes ts before t stack v) (hv : v.isFinite = false) :
    ∃ before' t' stack' v', before' <+: before ∧ FirstNonFinite ts before' t' stack' v' := by
  by_cases hearlier :
      ∀ before' t' stack' v', Pushes before before' t' stack' v' → v'.isFinite = true
  · exact ⟨before, t, stack, v, List.prefix_rfl, h, hv, hearlier⟩
  · -- an earlier one was pushed by fewer tokens
    simp only [not_forall] at hearlier
    obtain ⟨before', t', stack', v', h', hv'⟩ := hearlier
    have hbegins : before' <+: before := (List.prefix_append before' [t']).trans h'.split
    have hshorter : before'.length < before.length := by
      have hle := h'.split.length_le
      rwa [List.length_append] at hle
    have hbefore : before <+: ts := (List.prefix_append before [t]).trans h.split
    obtain ⟨before'', t'', stack'', v'', hle, hfirst⟩ :=
      (h'.mono hbefore).exists_first (Bool.eq_false_iff.mpr hv')
    exact ⟨before'', t'', stack'', v'', hle.trans hbegins, hfirst⟩
termination_by before.length

/-- The first value that is not finite comes from an operator that overflows. -/
theorem FirstNonFinite.overflows {ts before : List Token} {t : Token} {stack : List Float}
    {v : Float} (h : FirstNonFinite ts before t stack v) :
    ∃ o a b rest, t = .op o ∧ stack = b :: a :: rest ∧ o.Overflows a b v := by
  have hstack := finite_of_pushAll h.reached h.earlier
  obtain ⟨rest, hobeys⟩ := h.obeys
  cases hobeys with
  | operand hread =>
      have hfinite := isFinite_of_readNumber hread
      rw [h.not_finite] at hfinite
      cases hfinite
  | @operator o a b _ _ heq hv =>
      subst heq
      exact ⟨o, a, b, rest, rfl, rfl,
        Operator.overflows_of_apply (hstack a (by simp)) (hstack b (by simp)) hv h.not_finite⟩

end Rpn

/-! ## In the tree of an input -/

namespace Expr

/-- `Overflows p v`: the branches of `p` have finite values, and the value of `p` itself is
the infinity `v`. -/
inductive Overflows : Expr → Float → Prop where
  | binary {o : Operator} {l r : Expr} {a b v : Float} (ha : l.value = .ok a)
      (hb : r.value = .ok b) (h : o.Overflows a b v) : Overflows (.binary o l r) v

theorem Overflows.value_eq {p : Expr} {v : Float} (h : p.Overflows v) : p.value = .ok v := by
  cases h with
  | binary ha hb h => exact value_binary_eq_ok_iff.mpr ⟨_, _, ha, hb, h.result⟩

theorem Overflows.infinite {p : Expr} {v : Float} (h : p.Overflows v) :
    ∃ negative, v = Double.ofCode negative Double.infinityCode := by
  cases h with
  | binary _ _ h => exact h.infinite

theorem Overflows.isNaN_eq_false {p : Expr} {v : Float} (h : p.Overflows v) :
    v.isNaN = false := by
  cases h with
  | binary _ _ h => exact h.isNaN_eq_false

/-- A tree whose value is not finite has a part that overflows. -/
theorem exists_overflows {e : Expr} {v : Float} (h : e.value = .ok v)
    (hv : v.isFinite = false) : ∃ p ∈ e.parts, ∃ w, p.Overflows w := by
  induction e generalizing v with
  | number text =>
      have hfinite := isFinite_of_readNumber h
      rw [hv] at hfinite
      cases hfinite
  | binary o l r ihl ihr =>
      obtain ⟨a, b, ha, hb, happly⟩ := value_binary_eq_ok_iff.mp h
      cases hleft : a.isFinite with
      | false =>
          obtain ⟨p, hp, hw⟩ := ihl ha hleft
          exact ⟨p, mem_parts_binary.mpr (.inl hp), hw⟩
      | true =>
          cases hright : b.isFinite with
          | false =>
              obtain ⟨p, hp, hw⟩ := ihr hb hright
              exact ⟨p, mem_parts_binary.mpr (.inr (.inl hp)), hw⟩
          | true =>
              exact ⟨.binary o l r, mem_parts_binary.mpr (.inr (.inr rfl)), v,
                .binary ha hb (Operator.overflows_of_apply hleft hright happly hv)⟩

end Expr

/-- A result that is no number has an infinity below it. -/
theorem exists_overflows_of_isNaN {input : String} {v : Float}
    (hvalue : evaluate input = .ok v) (hnan : v.isNaN = true) :
    ∃ ts e p negative, readExpression input = .ok ts ∧ Reads .sum ts e ∧
      p ∈ e.parts ∧ p ≠ e ∧
      p.value = .ok (Double.ofCode negative Double.infinityCode) ∧
      p.Overflows (Double.ofCode negative Double.infinityCode) := by
  obtain ⟨ts, hread, _⟩ := bind_eq_ok_iff.mp hvalue
  have hcheck := (readExpression_eq_ok_iff.mp hread).2
  obtain ⟨e, he⟩ := (checkExpression_eq_ok_iff.mp hcheck).1.exists_reads
  rw [evaluate_eq_value hread he] at hvalue
  obtain ⟨p, hp, w, hw⟩ := Expr.exists_overflows hvalue (isFinite_eq_false_of_isNaN hnan)
  have hne : p ≠ e := by
    -- an infinity is not the double that is no number
    rintro rfl
    rw [hw.value_eq] at hvalue
    cases hvalue
    rw [hw.isNaN_eq_false] at hnan
    cases hnan
  obtain ⟨negative, rfl⟩ := hw.infinite
  exact ⟨ts, e, p, negative, hread, he, hp, hne, hw.value_eq, hw⟩

/-- **Where values that are not finite come from**, whatever tokens are computed: an
operand pushes a finite value and a division divides by no zero. If any value pushed is
not finite, then there is a first one, and it is an infinity, not the double that is no
number: an operator gave it for two finite values below whose exact result is at the
bound of the finite doubles or beyond. So if an input has the result that is no number,
a proper part of its tree has an infinity for its value, as an operator overflowed
there. -/
theorem Rpn.nonFinite_from_overflow (ts : List Token) :
    (∀ before text stack v, Pushes ts before (.number text) stack v → v.isFinite = true) ∧
    (∀ before stack v, Pushes ts before (.op .div) stack v →
      ∃ a b rest, stack = b :: a :: rest ∧ Double.code b ≠ 0 ∧ v = a / b) ∧
    (∀ before t stack v, Pushes ts before t stack v → v.isFinite = false →
      ∃ before' t' stack' v', before' <+: before ∧
        FirstNonFinite ts before' t' stack' v') ∧
    (∀ before t stack v, FirstNonFinite ts before t stack v →
      (∃ o a b rest, t = .op o ∧ stack = b :: a :: rest ∧ o.Overflows a b v) ∧
      v.isNaN = false) ∧
    ∀ input v, evaluate input = .ok v → v.isNaN = true →
      ∃ us e p negative, readExpression input = .ok us ∧ Reads .sum us e ∧
        p ∈ e.parts ∧ p ≠ e ∧
        p.value = .ok (Double.ofCode negative Double.infinityCode) ∧
        p.Overflows (Double.ofCode negative Double.infinityCode) := by
  refine ⟨?_, ?_, ?_, ?_, ?_⟩
  · intro before text stack v h
    obtain ⟨_, hobeys⟩ := h.obeys
    cases hobeys with
    | operand hread => exact isFinite_of_readNumber hread
  · intro before stack v h
    obtain ⟨rest, hobeys⟩ := h.obeys
    cases hobeys with
    | @operator _ a b _ _ hstack hv =>
        exact ⟨a, b, rest, hstack, Operator.apply_div_eq_ok_iff.mp hv⟩
  · intro before t stack v h hv
    exact h.exists_first hv
  · intro before t stack v h
    obtain ⟨o, a, b, rest, ht, hstack, hv⟩ := h.overflows
    exact ⟨⟨o, a, b, rest, ht, hstack, hv⟩, hv.isNaN_eq_false⟩
  · intro input v hvalue hnan
    exact exists_overflows_of_isNaN hvalue hnan

/-- A product that is too large is the first value that is not finite; multiplied by zero
it leaves no number. -/
theorem Rpn.nonFinite_from_overflow_product :
    let ts := [.number "1e308", .number "-10", .op .mul, .number "0", .op .mul]
    (∃ v, Rpn.value ts = .ok v ∧ v.isNaN = true) ∧
    Pushes ts [.number "1e308", .number "-10"] (.op .mul) [-10, 1e308]
      (Double.ofCode true Double.infinityCode) ∧
    ∃ before t stack v, FirstNonFinite ts before t stack v ∧ v.isNaN = false ∧
      ∃ (o : Operator) (a b : Float), o.Overflows a b v := by
  intro ts
  have hvalue : Rpn.value ts = .ok (0 / 0) := toOption_eq_some_iff.mp (by decide +kernel)
  have hpush : Pushes ts [.number "1e308", .number "-10"] (.op .mul) [-10, 1e308]
      (Double.ofCode true Double.infinityCode) :=
    ⟨⟨[.number "0", .op .mul], rfl⟩, toOption_eq_some_iff.mp (by decide +kernel),
      [], toOption_eq_some_iff.mp (by decide +kernel)⟩
  obtain ⟨_, _, hexists, hfirst, _⟩ := nonFinite_from_overflow ts
  obtain ⟨before, t, stack, v, _, h⟩ := hexists _ _ _ _ hpush (by decide)
  obtain ⟨⟨o, a, b, _, _, _, hover⟩, hnumber⟩ := hfirst before t stack v h
  exact ⟨⟨0 / 0, hvalue, by decide⟩, hpush, before, t, stack, v, h, hnumber, o, a, b, hover⟩

end Calculator
