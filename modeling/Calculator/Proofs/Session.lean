import Calculator.Session

/-!
# The fields of a session agree

Whatever is done to a fresh session, and in whatever order, its fields go
together: the number of decimals stays within its bound, the text of the value
is that of the value at this number of decimals, and a trace is kept only with
its value and without an error. Every change keeps this, and so does every run
of changes.
-/

namespace Calculator.Session

/-! ## Agreement -/

/-- The text of a value that may be missing. -/
def resultText (value : Option Float) (digits : Nat) : String :=
  match value with
  | some v => Double.fixedText v digits
  | none => ""

/-- What the fields of a session say of each other. -/
structure Consistent (s : Session) : Prop where
  digits_le : s.digits ≤ maxDigits
  result_eq : s.result = resultText s.value s.digits
  /-- A trace is that of the value, and of an evaluation without error. -/
  trace : s.trace = {} ∨ s.error = "" ∧ s.value = some s.trace.value

variable {s : Session}

theorem consistent_fresh : Consistent {} where
  digits_le := by decide
  result_eq := rfl
  trace := .inl rfl

namespace Consistent

/-! ## One change -/

/-- Entry and keyboard are free. -/
theorem edit (h : s.Consistent) (entry : String) (focus : Bool) :
    Consistent { s with entry := entry, focus := focus } where
  digits_le := h.digits_le
  result_eq := h.result_eq
  trace := h.trace

theorem clearResults (h : s.Consistent) : s.clearResults.Consistent where
  digits_le := h.digits_le
  result_eq := rfl
  trace := .inl rfl

theorem setError (h : s.Consistent) (message : String) :
    (s.setError message).Consistent where
  digits_le := h.digits_le
  result_eq := h.result_eq
  trace := .inl rfl

theorem setResult (h : s.Consistent) (trace : Trace) :
    (s.setResult trace).Consistent where
  digits_le := h.digits_le
  result_eq := rfl
  trace := .inr ⟨rfl, rfl⟩

/-- The text is made anew from the value, not from the old text. -/
theorem setDigits (h : s.Consistent) (digits : Nat) :
    (s.setDigits digits).Consistent where
  digits_le := Nat.min_le_right digits maxDigits
  result_eq := by
    have hold := h.result_eq
    unfold Session.setDigits
    cases hvalue : s.value with
    | none =>
        rw [hvalue] at hold
        exact hold
    | some v => rfl
  trace := h.trace

theorem apply (h : s.Consistent) (change : Change) :
    (s.apply change).Consistent := by
  cases change with
  | setEntry text => exact h.edit text s.focus
  | unfocus => exact h.edit s.entry false
  | clearEntry => exact h.edit "" true
  | clearResults => exact h.clearResults
  | clearAll =>
      rw [Session.apply, s.clearAll_eq]
      exact consistent_fresh
  | setError message => exact h.setError message
  | setResult trace => exact h.setResult trace
  | setDigits digits => exact h.setDigits digits

/-! ## Runs of changes -/

theorem applyAll (h : s.Consistent) (changes : List Change) :
    (s.applyAll changes).Consistent := by
  induction changes generalizing s with
  | nil => exact h
  | cons change changes ih => exact ih (h.apply change)

/-! ## What follows -/

theorem result_of_none (h : s.Consistent) (hvalue : s.value = none) :
    s.result = "" := by
  rw [h.result_eq, hvalue]
  rfl

theorem result_of_some (h : s.Consistent) {v : Float} (hvalue : s.value = some v) :
    s.result = Double.fixedText v s.digits := by
  rw [h.result_eq, hvalue]
  rfl

theorem of_trace (h : s.Consistent) (htrace : s.trace ≠ {}) :
    s.error = "" ∧ s.value = some s.trace.value :=
  h.trace.resolve_left htrace

theorem trace_of_error (h : s.Consistent) (herror : s.error ≠ "") :
    s.trace = {} :=
  h.trace.resolve_right fun hboth => herror hboth.1

end Consistent

/-- **The fields of a session agree** after every run of changes, and so in all the
states that the run goes through. -/
theorem fields_agree (changes : List Change) :
    let s := ({} : Session).applyAll changes
    s.digits ≤ 17 ∧
    (s.value = none → s.result = "") ∧
    (∀ v, s.value = some v → s.result = Double.fixedText v s.digits) ∧
    (s.error ≠ "" → s.trace = {}) ∧
    (s.trace ≠ {} → s.error = "" ∧ s.value = some s.trace.value) ∧
    ∀ before change after, changes = before ++ change :: after →
      (states {} changes)[before.length]? = some (applyAll {} (before ++ [change])) := by
  intro s
  have h : s.Consistent := consistent_fresh.applyAll changes
  refine ⟨h.digits_le, h.result_of_none, fun _ => h.result_of_some,
    h.trace_of_error, h.of_trace, ?_⟩
  rintro before change after rfl
  exact getElem?_states {} before change after

/-- The value outlives an error, and its text follows the decimals; the trace
is gone. -/
theorem fields_agree_after_error :
    let s := ({} : Session).applyAll [.setResult ⟨"2 / 3", "2 3 /", 2 / 3⟩,
      .setError "division par zéro", .setDigits 2]
    s.value = some (2 / 3) ∧ s.result = "0.67" ∧
      s.error ≠ "" ∧ s.trace = {} := by
  intro s
  obtain ⟨-, -, hresult, htrace, -, -⟩ := fields_agree [.setResult ⟨"2 / 3", "2 3 /", 2 / 3⟩,
    .setError "division par zéro", .setDigits 2]
  have herror : s.error ≠ "" := by decide
  have htext : Double.fixedText (2 / 3) 2 = "0.67" := by decide +kernel
  exact ⟨rfl, (hresult (2 / 3) rfl).trans htext, herror, htrace herror⟩

end Calculator.Session
