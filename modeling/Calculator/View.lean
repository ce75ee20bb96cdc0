import Calculator.Session
import Calculator.Keypad
import Calculator.Decimal.Shortest
import Calculator.Text.Line

/-!
# Using the calculator

What a user can do at the window, what each gesture makes of the session,
what the window shows, and what an evaluation writes to the log.

The window is drawn by a toolkit. Whether the entry has the keyboard when Enter is
pressed is its word, and part of the gesture. Of its box for the decimals two
things are relied on: the number stays within the range the box is given, and it
is reported if it has changed.
-/

namespace Calculator

/-! ## The log -/

/-- How much a log record matters. -/
inductive LogLevel where
  | debug
  | trace
deriving DecidableEq, Repr

/-- One line of the log. -/
structure LogRecord where
  level : LogLevel
  message : String
deriving DecidableEq, Repr

/-- The record of a successful evaluation. -/
def LogRecord.ofTrace (t : Trace) : LogRecord where
  level := .trace
  message :=
    s!"jetons: {t.tokens} | rpn: {t.rpn} | valeur: {Double.shortestText t.value}"

/-- The record of an evaluation that failed. -/
def LogRecord.ofError (text : String) (e : Error) : LogRecord where
  level := .debug
  message := s!"expression refusée {Text.quoted text}: {e.message}"

/-! ## Evaluating the entry -/

namespace Session

/-- The part of the entry that is evaluated: its first line, without the
spaces at the ends. -/
def expressionText (s : Session) : String :=
  Text.trimSpaces (Text.firstLine s.entry)

/-- Evaluates the entry, notes the outcome and logs it. -/
def evaluate (s : Session) : Session × LogRecord :=
  match analyse s.expressionText with
  | .ok t => (s.setResult t, .ofTrace t)
  | .error e => (s.setError e.message, .ofError s.expressionText e)

/-! ## Gestures -/

/-- Adds a character at the end of the entry. -/
def insert (s : Session) (key : Key) : Session :=
  { s with entry := s.entry.push key.char, focus := true }

/-- Removes the last character of the entry, if there is one. -/
def delete (s : Session) : Session :=
  { s with entry := String.ofList s.entry.toList.dropLast, focus := true }

/-- Draws the entry, which gets the keyboard if the session asked for it; a
request is met once. -/
def drawEntry (s : Session) : Session :=
  if s.focus then s.unfocus else s

theorem drawEntry_eq (s : Session) : s.drawEntry = s.unfocus := by
  unfold drawEntry
  split
  · rfl
  · rename_i h
    rw [Bool.not_eq_true] at h
    rw [unfocus, ← h]

/-- What the toolkit's box of decimals reports when it is turned to a number: the
nearest one in its range, or nothing if that is where it stands. -/
def reported? (s : Session) (value : Int) : Option Nat :=
  let digits := min value.toNat maxDigits
  if digits = s.digits then none else some digits

/-- Sets the number of decimals that the box reports, if it reports one. -/
def dial (s : Session) (value : Int) : Session :=
  match s.reported? value with
  | some digits => s.setDigits digits
  | none => s

end Session

/-- What a user can do. -/
inductive Gesture where
  /-- Puts a text of any kind in the entry. -/
  | type (text : String)
  | press (button : Button)
  /-- Turns the box of decimals. -/
  | dial (value : Int)
  /-- The Enter key, which evaluates if the toolkit says that the entry has the
  keyboard. -/
  | enter (focused : Bool := true)
  /-- The Escape key, which empties the entry. -/
  | escape

namespace Session

/-- The session after a button, and what was logged. -/
def press (s : Session) : Button → Session × List LogRecord
  | .insert key => (s.insert key, [])
  | .delete => (s.delete, [])
  | .clearEntry => (s.clearEntry, [])
  | .clearResults => (s.clearResults, [])
  | .clearAll => (s.clearAll, [])
  | .equals => (s.evaluate.1, [s.evaluate.2])

/-- The session after a gesture, and what was logged. Text and the Escape key are
taken before the entry is drawn, everything else after it. -/
def perform (s : Session) : Gesture → Session × List LogRecord
  | .type text => ((s.setEntry text).drawEntry, [])
  | .press button => s.drawEntry.press button
  | .dial value => (s.drawEntry.dial value, [])
  | .enter focused => if focused then s.drawEntry.press .equals else (s.drawEntry, [])
  | .escape => (s.clearEntry.drawEntry, [])

/-- An evaluation asks for the keyboard, so it does not count whether the entry had
asked for it. -/
theorem perform_equals (s : Session) :
    s.perform (.press .equals) = (s.evaluate.1, [s.evaluate.2]) := by
  have htext : s.unfocus.expressionText = s.expressionText := rfl
  rw [perform, drawEntry_eq, press, evaluate, evaluate, htext]
  cases analyse s.expressionText with
  | ok t => rfl
  | error e => rfl

/-- The session after some gestures, the first of the list first. -/
def performAll (s : Session) (gestures : List Gesture) : Session :=
  gestures.foldl (fun s gesture => (s.perform gesture).1) s

/-- The sessions after each of some gestures, and what each of them logged. -/
def history (s : Session) : List Gesture → List (Session × List LogRecord)
  | [] => []
  | gesture :: gestures =>
    s.perform gesture :: (s.perform gesture).1.history gestures

@[simp] theorem performAll_nil (s : Session) : s.performAll [] = s := rfl

@[simp] theorem performAll_cons (s : Session) (gesture : Gesture)
    (gestures : List Gesture) :
    s.performAll (gesture :: gestures)
      = (s.perform gesture).1.performAll gestures := rfl

theorem performAll_append (s : Session) (gestures more : List Gesture) :
    s.performAll (gestures ++ more)
      = (s.performAll gestures).performAll more :=
  List.foldl_append

theorem length_history (s : Session) (gestures : List Gesture) :
    (s.history gestures).length = gestures.length := by
  induction gestures generalizing s with
  | nil => rfl
  | cons gesture gestures ih => simp [history, ih]

/-- The history of a run is made of what its beginnings lead to. -/
theorem history_append (s : Session) (gestures more : List Gesture) :
    s.history (gestures ++ more)
      = s.history gestures ++ (s.performAll gestures).history more := by
  induction gestures generalizing s with
  | nil => rfl
  | cons gesture gestures ih => simp [history, ih]

/-- Each gesture of a run leaves the session that the run up to it leads to. -/
theorem exists_getElem?_history (s : Session) (before : List Gesture) (gesture : Gesture)
    (after : List Gesture) :
    ∃ log, (s.history (before ++ gesture :: after))[before.length]?
      = some (s.performAll (before ++ [gesture]), log) := by
  refine ⟨((s.performAll before).perform gesture).2, ?_⟩
  rw [history_append, List.getElem?_append_right (Nat.le_of_eq (length_history s before)),
    length_history, Nat.sub_self, performAll_append]
  rfl

/-! ## What the window shows -/

/-- The texts of the labels from top to bottom; one of the keypad's places
holds an empty one. -/
def labels (s : Session) : List String :=
  ["Calculatrice RPN", "Entrée :", "Affichage :", ""]
    ++ (if s.error.isEmpty then [] else [s.error])
    ++ ["Résultat :", if s.value.isSome then s.result else "—",
        "Jetons :", s.trace.tokens, "RPN :", s.trace.rpn]

end Session

end Calculator
