import Calculator.Trace
import Calculator.Decimal.Fixed

/-!
# The state of the calculator

A session holds the line being typed, the value of the last successful
evaluation with its text, the error of the last one if it failed, its trace,
and how many decimals are shown. An error keeps the last value on display
but drops the trace, which told of another expression.

The text of the value is always made from the value itself, so that changing
the number of decimals never rounds a rounded text.
-/

namespace Calculator

/-- How many decimals a fresh session shows. -/
def defaultDigits : Nat := 10

/-- How many decimals can be shown at most. -/
def maxDigits : Nat := 17

/-- All that a calculator remembers. -/
structure Session where
  entry : String := ""
  /-- The text of `value`, empty when there is none. -/
  result : String := ""
  value : Option Float := none
  /-- The message of the last evaluation if it failed. -/
  error : String := ""
  trace : Trace := {}
  digits : Nat := defaultDigits
  /-- Whether the entry is to receive the keyboard. -/
  focus : Bool := true
deriving DecidableEq

namespace Session

/-! ## Changes -/

/-- Puts a text in the entry. -/
def setEntry (s : Session) (text : String) : Session :=
  { s with entry := text }

/-- Takes the keyboard from the entry. -/
def unfocus (s : Session) : Session :=
  { s with focus := false }

/-- Empties the entry and nothing else. -/
def clearEntry (s : Session) : Session :=
  { s with entry := "", focus := true }

/-- Empties everything that evaluations left behind. -/
def clearResults (s : Session) : Session :=
  { s with result := "", value := none, error := "", trace := {}, focus := true }

/-- Goes back to a fresh session. -/
def clearAll (s : Session) : Session :=
  { (s.clearEntry).clearResults with digits := defaultDigits }

/-- Notes the failure of an evaluation; the last value stays on display. -/
def setError (s : Session) (message : String) : Session :=
  { s with error := message, trace := {}, focus := true }

/-- Notes the success of an evaluation. -/
def setResult (s : Session) (trace : Trace) : Session :=
  { s with
    error := ""
    value := some trace.value
    result := Double.fixedText trace.value s.digits
    trace := trace
    focus := true }

/-- Shows another number of decimals, as far as that is possible. -/
def setDigits (s : Session) (digits : Nat) : Session :=
  let shown := min digits maxDigits
  { s with
    digits := shown
    result := match s.value with
      | some v => Double.fixedText v shown
      | none => s.result
    focus := true }

/-- Nothing of the past outlives `clearAll`. -/
theorem clearAll_eq (s : Session) : s.clearAll = {} := rfl

/-! ## Runs -/

/-- One change of a session. -/
inductive Change where
  | setEntry (text : String)
  | unfocus
  | clearEntry
  | clearResults
  | clearAll
  | setError (message : String)
  | setResult (trace : Trace)
  | setDigits (digits : Nat)

/-- The session after a change. -/
def apply (s : Session) : Change → Session
  | .setEntry text => s.setEntry text
  | .unfocus => s.unfocus
  | .clearEntry => s.clearEntry
  | .clearResults => s.clearResults
  | .clearAll => s.clearAll
  | .setError message => s.setError message
  | .setResult trace => s.setResult trace
  | .setDigits digits => s.setDigits digits

/-- The session after some changes, the first of the list first. -/
def applyAll (s : Session) (changes : List Change) : Session :=
  changes.foldl apply s

/-- The sessions after each of some changes. -/
def states (s : Session) : List Change → List Session
  | [] => []
  | change :: changes => s.apply change :: (s.apply change).states changes

@[simp] theorem applyAll_nil (s : Session) : s.applyAll [] = s := rfl

@[simp] theorem applyAll_cons (s : Session) (change : Change)
    (changes : List Change) :
    s.applyAll (change :: changes) = (s.apply change).applyAll changes := rfl

theorem applyAll_append (s : Session) (changes more : List Change) :
    s.applyAll (changes ++ more) = (s.applyAll changes).applyAll more :=
  List.foldl_append

theorem length_states (s : Session) (changes : List Change) :
    (s.states changes).length = changes.length := by
  induction changes generalizing s with
  | nil => rfl
  | cons change changes ih => simp [states, ih]

/-- The states of a run are what its beginnings lead to. -/
theorem states_append (s : Session) (changes more : List Change) :
    s.states (changes ++ more)
      = s.states changes ++ (s.applyAll changes).states more := by
  induction changes generalizing s with
  | nil => rfl
  | cons change changes ih => simp [states, ih]

/-- Each change of a run leaves the session that the run up to it leads to. -/
theorem getElem?_states (s : Session) (before : List Change) (change : Change)
    (after : List Change) :
    (s.states (before ++ change :: after))[before.length]?
      = some (s.applyAll (before ++ [change])) := by
  rw [states_append, List.getElem?_append_right (Nat.le_of_eq (length_states s before)),
    length_states, Nat.sub_self, applyAll_append]
  rfl

end Session

end Calculator
