import Mathlib.Data.List.DropRight
import Calculator.View
import Calculator.Proofs.Session
import Calculator.Proofs.Trace

/-!
# What the window shows is the history of the run

A run of gestures is a list of events: evaluations with their outcomes,
clearings, turns of the box of decimals, and edits of the entry. What the
window shows can be read off this list: the outcomes since the results were
last cleared give value, error and trace, and the numbers set since everything
was last cleared give the number of decimals. An error keeps the value of an
earlier success but not its trace.
-/

namespace Calculator

/-! ## The events of a run -/

/-- What happens at a gesture. -/
inductive Event where
  | evaluated (outcome : Except Error Trace)
  | clearedResults
  | clearedAll
  | dialed (value : Int)
  /-- Nothing changes, or nothing but the entry. -/
  | edited

namespace Gesture

/-- What a gesture makes of the entry. -/
def edit (entry : String) : Gesture → String
  | .type text => text
  | .press (.insert key) => entry.push key.char
  | .press .delete => String.ofList entry.toList.dropLast
  | .press .clearEntry | .press .clearAll | .escape => ""
  | .press .clearResults | .press .equals | .enter _ | .dial _ => entry

/-- What happens at a gesture that finds an entry. -/
def event (entry : String) : Gesture → Event
  | .press .equals | .enter true =>
    .evaluated (analyse (Text.trimSpaces (Text.firstLine entry)))
  | .press .clearResults => .clearedResults
  | .press .clearAll => .clearedAll
  | .dial value => .dialed value
  | .type _ | .press (.insert _) | .press .delete | .press .clearEntry
  | .enter false | .escape => .edited

/-- The events of a run that begins with an entry. -/
def events (entry : String) : List Gesture → List Event
  | [] => []
  | g :: gs => g.event entry :: events (g.edit entry) gs

/-- An evaluation does not change the entry. -/
theorem edit_of_evaluated {g : Gesture} {entry : String}
    {outcome : Except Error Trace} (h : g.event entry = .evaluated outcome) :
    g.edit entry = entry := by
  cases g with
  | type text => cases h
  | press button =>
      cases button with
      | equals => rfl
      | _ => cases h
  | dial value => cases h
  | enter focused => rfl
  | escape => cases h

end Gesture

/-! ## Messages -/

theorem append_ne_empty {s t : String} (h : s ≠ "") : s ++ t ≠ "" :=
  fun hst => h (String.append_eq_empty_iff.mp hst).1

/-- Every message begins with a text of its own. -/
theorem Error.message_ne_empty (e : Error) : e.message ≠ "" := by
  cases e with
  | unexpectedChar char position =>
      exact append_ne_empty (append_ne_empty (append_ne_empty
        (append_ne_empty (by decide))))
  | invalidExpression reason => exact append_ne_empty (by decide)
  | unreadableNumber text fault => exact append_ne_empty (by decide)
  | nonFiniteNumber text => exact append_ne_empty (by decide)
  | divisionByZero => decide
  | invalidOperation symbol => exact append_ne_empty (append_ne_empty (by decide))

/-! ## Outcomes -/

section Outcomes

variable (outcomes : List (Except Error Trace))

/-- The trace of the last success, failures after it notwithstanding. -/
def lastSuccess? : Option Trace :=
  (outcomes.filterMap Except.toOption).getLast?

/-- The trace of the last outcome, if it is a success. -/
def lastTrace? : Option Trace :=
  match outcomes.getLast? with
  | some (.ok t) => some t
  | _ => none

/-- The error of the last outcome, if it is a failure. -/
def lastError? : Option Error :=
  match outcomes.getLast? with
  | some (.error e) => some e
  | _ => none

variable (t : Trace) (e : Error)

theorem lastSuccess?_concat_ok : lastSuccess? (outcomes ++ [.ok t]) = some t := by
  have hlast : [(.ok t : Except Error Trace)].filterMap Except.toOption = [t] := rfl
  rw [lastSuccess?, List.filterMap_append, hlast, List.getLast?_concat]

theorem lastSuccess?_concat_error :
    lastSuccess? (outcomes ++ [.error e]) = lastSuccess? outcomes := by
  have hlast : [(.error e : Except Error Trace)].filterMap Except.toOption = [] := rfl
  rw [lastSuccess?, List.filterMap_append, hlast, List.append_nil, lastSuccess?]

theorem lastTrace?_concat_ok : lastTrace? (outcomes ++ [.ok t]) = some t := by
  simp [lastTrace?]

theorem lastTrace?_concat_error : lastTrace? (outcomes ++ [.error e]) = none := by
  simp [lastTrace?]

theorem lastError?_concat_ok : lastError? (outcomes ++ [.ok t]) = none := by
  simp [lastError?]

theorem lastError?_concat_error :
    lastError? (outcomes ++ [.error e]) = some e := by
  simp [lastError?]

end Outcomes

/-! ## What a history tells -/

namespace Event

/-- Whether nothing of the earlier outcomes is left. -/
def clearsResults : Event → Bool
  | clearedResults | clearedAll => true
  | evaluated _ | dialed _ | edited => false

/-- Whether nothing of all that was set is left. -/
def clearsAll : Event → Bool
  | clearedAll => true
  | evaluated _ | clearedResults | dialed _ | edited => false

def outcome? : Event → Option (Except Error Trace)
  | evaluated outcome => some outcome
  | clearedResults | clearedAll | dialed _ | edited => none

/-- The number of decimals that is set, within its bounds. -/
def digits? : Event → Option Nat
  | dialed value => some (min value.toNat maxDigits)
  | evaluated _ | clearedResults | clearedAll | edited => none

/-- The outcomes since the results were last cleared. -/
def outcomes (es : List Event) : List (Except Error Trace) :=
  (es.rtakeWhile (!·.clearsResults)).filterMap outcome?

/-- The last number of decimals set since everything was last cleared. -/
def digits (es : List Event) : Nat :=
  ((es.rtakeWhile (!·.clearsAll)).filterMap digits?).getLast?.getD defaultDigits

/-! ### One more event -/

variable (es : List Event)

theorem outcomes_concat (e : Event) :
    outcomes (es ++ [e])
      = if e.clearsResults then [] else outcomes es ++ e.outcome?.toList := by
  rw [outcomes, List.rtakeWhile_concat]
  cases e <;> simp [clearsResults, outcomes, outcome?]

theorem digits_concat (e : Event) :
    digits (es ++ [e])
      = if e.clearsAll then defaultDigits else e.digits?.getD (digits es) := by
  rw [digits, List.rtakeWhile_concat]
  cases e <;> simp [clearsAll, digits, digits?]

/-- What is no outcome and clears nothing leaves the outcomes as they are. -/
theorem outcomes_concat_of_none {e : Event} (hclears : e.clearsResults = false)
    (houtcome : e.outcome? = none) : outcomes (es ++ [e]) = outcomes es := by
  simp [outcomes_concat, hclears, houtcome]

end Event

/-! ## One gesture -/

namespace Session

/-- What an event makes of the session, the entry left aside. -/
def after (s : Session) : Event → Session
  | .evaluated (.ok t) => s.setResult t
  | .evaluated (.error e) => s.setError e.message
  | .clearedResults => s.clearResults
  | .clearedAll => s.clearAll
  | .dialed value => s.dial value
  | .edited => s

/-- The outcome of an evaluation is that of the text to evaluate. -/
theorem evaluate_fst (s : Session) :
    s.evaluate.1 = s.after (.evaluated (analyse s.expressionText)) := by
  unfold evaluate
  cases analyse s.expressionText <;> rfl

/-- A gesture edits the entry and makes its event happen. -/
theorem exists_perform_eq (s : Session) (g : Gesture) :
    ∃ focus, (s.perform g).1
      = { s.after (g.event s.entry) with
          entry := g.edit s.entry, focus := focus } := by
  have hequals : (s.perform (.press .equals)).1
      = { s.after (.evaluated (analyse s.expressionText)) with
          entry := s.entry, focus := true } := by
    rw [perform_equals, evaluate_fst]
    cases analyse s.expressionText <;> rfl
  cases g with
  | type text =>
      refine ⟨false, ?_⟩
      rw [perform, drawEntry_eq]
      rfl
  | press button =>
      cases button with
      | equals => exact ⟨true, hequals⟩
      | _ =>
          refine ⟨true, ?_⟩
          rw [perform, drawEntry_eq]
          rfl
  | dial value =>
      have hreported : s.unfocus.reported? value = s.reported? value := rfl
      rw [perform, drawEntry_eq, Gesture.event, Gesture.edit, after, dial, dial, hreported]
      cases s.reported? value with
      | none => exact ⟨false, rfl⟩
      | some digits => exact ⟨true, rfl⟩
  | enter focused =>
      cases focused with
      | false =>
          refine ⟨false, ?_⟩
          rw [perform, drawEntry_eq]
          rfl
      | true => exact ⟨true, hequals⟩
  | escape =>
      refine ⟨false, ?_⟩
      rw [perform, drawEntry_eq]
      rfl

theorem entry_perform (s : Session) (g : Gesture) :
    (s.perform g).1.entry = g.edit s.entry := by
  obtain ⟨focus, h⟩ := s.exists_perform_eq g
  rw [h]

/-- The entry after a run is that of its edits. -/
theorem entry_performAll (s : Session) (gs : List Gesture) :
    (s.performAll gs).entry = gs.foldl Gesture.edit s.entry := by
  induction gs generalizing s with
  | nil => rfl
  | cons g gs ih => rw [performAll_cons, ih, entry_perform, List.foldl_cons]

/-- What the box reports lies in its range, so it is set as it is. -/
theorem digits_dial (s : Session) (value : Int) :
    (s.dial value).digits = min value.toNat maxDigits := by
  rw [dial, reported?]
  by_cases h : min value.toNat maxDigits = s.digits
  · rw [if_pos h]
    exact h.symm
  · rw [if_neg h]
    exact Nat.min_eq_left (Nat.min_le_right _ _)

/-- Turning the box changes the number of decimals and the text that hangs on
it. -/
theorem dial_frame (s : Session) (value : Int) :
    (s.dial value).value = s.value ∧ (s.dial value).error = s.error ∧
      (s.dial value).trace = s.trace := by
  rw [dial]
  cases s.reported? value with
  | none => exact ⟨rfl, rfl, rfl⟩
  | some digits => exact ⟨rfl, rfl, rfl⟩

namespace Consistent

variable {s : Session}

theorem dial (h : s.Consistent) (value : Int) : (s.dial value).Consistent := by
  rw [Session.dial]
  cases s.reported? value with
  | none => exact h
  | some digits => exact h.setDigits digits

theorem after (h : s.Consistent) (e : Event) : (s.after e).Consistent := by
  cases e with
  | evaluated outcome =>
      cases outcome with
      | ok t => exact h.setResult t
      | error e => exact h.setError e.message
  | clearedResults => exact h.clearResults
  | clearedAll =>
      rw [Session.after, s.clearAll_eq]
      exact consistent_fresh
  | dialed value => exact h.dial value
  | edited => exact h

theorem performAll (h : s.Consistent) (gs : List Gesture) :
    (s.performAll gs).Consistent := by
  induction gs generalizing s with
  | nil => exact h
  | cons g gs ih =>
      obtain ⟨focus, hg⟩ := s.exists_perform_eq g
      rw [performAll_cons, hg]
      exact ih ((h.after _).edit _ _)

end Consistent

/-! ## Sessions that show their history -/

/-- The session shows these outcomes, at this number of decimals. -/
structure Shows (s : Session) (outcomes : List (Except Error Trace))
    (digits : Nat) : Prop where
  value : s.value = (lastSuccess? outcomes).map Trace.value
  error : s.error = (lastError? outcomes).elim "" Error.message
  trace : s.trace = (lastTrace? outcomes).getD {}
  digits : s.digits = digits

theorem shows_fresh : Shows {} (Event.outcomes []) (Event.digits []) where
  value := rfl
  error := rfl
  trace := rfl
  digits := rfl

namespace Shows

variable {s : Session} {outcomes : List (Except Error Trace)} {digits : Nat}

theorem edit (h : s.Shows outcomes digits) (entry : String) (focus : Bool) :
    Shows { s with entry := entry, focus := focus } outcomes digits where
  value := h.value
  error := h.error
  trace := h.trace
  digits := h.digits

theorem setResult (h : s.Shows outcomes digits) (t : Trace) :
    (s.setResult t).Shows (outcomes ++ [.ok t]) digits where
  value := by rw [lastSuccess?_concat_ok]; rfl
  error := by rw [lastError?_concat_ok]; rfl
  trace := by rw [lastTrace?_concat_ok]; rfl
  digits := h.digits

/-- A failure keeps the value of the last success. -/
theorem setError (h : s.Shows outcomes digits) (e : Error) :
    (s.setError e.message).Shows (outcomes ++ [.error e]) digits where
  value := by rw [lastSuccess?_concat_error]; exact h.value
  error := by rw [lastError?_concat_error]; rfl
  trace := by rw [lastTrace?_concat_error]; rfl
  digits := h.digits

theorem clearResults (h : s.Shows outcomes digits) :
    s.clearResults.Shows [] digits where
  value := rfl
  error := rfl
  trace := rfl
  digits := h.digits

theorem dial (h : s.Shows outcomes digits) (value : Int) :
    (s.dial value).Shows outcomes (min value.toNat maxDigits) where
  value := (s.dial_frame value).1.trans h.value
  error := (s.dial_frame value).2.1.trans h.error
  trace := (s.dial_frame value).2.2.trans h.trace
  digits := s.digits_dial value

/-- An event leaves the session as the longer history tells. -/
theorem after {es : List Event}
    (h : s.Shows (Event.outcomes es) (Event.digits es)) (e : Event) :
    (s.after e).Shows (Event.outcomes (es ++ [e])) (Event.digits (es ++ [e])) := by
  rw [Event.digits_concat]
  cases e with
  | evaluated outcome =>
      rw [Event.outcomes_concat]
      cases outcome with
      | ok t => exact h.setResult t
      | error e => exact h.setError e
  | clearedResults =>
      rw [Event.outcomes_concat]
      exact h.clearResults
  | clearedAll =>
      rw [Event.outcomes_concat, Session.after, s.clearAll_eq]
      exact shows_fresh
  | dialed value =>
      rw [Event.outcomes_concat_of_none es rfl rfl]
      exact h.dial value
  | edited =>
      rw [Event.outcomes_concat_of_none es rfl rfl]
      exact h

/-- A run leaves the session as its events tell. -/
theorem performAll {es : List Event}
    (h : s.Shows (Event.outcomes es) (Event.digits es)) (gs : List Gesture) :
    (s.performAll gs).Shows (Event.outcomes (es ++ Gesture.events s.entry gs))
      (Event.digits (es ++ Gesture.events s.entry gs)) := by
  induction gs generalizing s es with
  | nil => simpa [Gesture.events] using h
  | cons g gs ih =>
      obtain ⟨focus, hg⟩ := s.exists_perform_eq g
      have hstep : (s.perform g).1.Shows
          (Event.outcomes (es ++ [g.event s.entry]))
          (Event.digits (es ++ [g.event s.entry])) := by
        rw [hg]
        exact (h.after _).edit _ _
      have hrun := ih hstep
      rw [entry_perform, List.append_assoc, List.singleton_append] at hrun
      exact hrun

/-! ### The labels -/

/-- The labels of a session that shows some outcomes. -/
theorem labels_eq (h : s.Shows outcomes digits) (hs : s.Consistent) :
    s.labels = ["Calculatrice RPN", "Entrée :", "Affichage :", ""]
      ++ ((lastError? outcomes).map Error.message).toList
      ++ ["Résultat :",
          (lastSuccess? outcomes).elim "—" fun t => Double.fixedText t.value digits,
          "Jetons :", ((lastTrace? outcomes).getD {}).tokens,
          "RPN :", ((lastTrace? outcomes).getD {}).rpn] := by
  have herror : (if s.error.isEmpty then [] else [s.error])
      = ((lastError? outcomes).map Error.message).toList := by
    rw [h.error]
    cases lastError? outcomes with
    | none => rfl
    | some e =>
        have hmessage : e.message.isEmpty = false :=
          String.isEmpty_eq_false_iff.mpr e.message_ne_empty
        simp [hmessage]
  have hresult : (if s.value.isSome then s.result else "—")
      = (lastSuccess? outcomes).elim "—" fun t => Double.fixedText t.value digits := by
    rw [hs.result_eq, h.value, h.digits]
    cases lastSuccess? outcomes <;> rfl
  rw [labels, herror, hresult, h.trace]

end Shows

/-! ## The whole run -/

/-- A failed evaluation leaves entry, value, text and decimals alone. -/
theorem perform_of_failed {s : Session} {g : Gesture} {err : Error}
    (h : g.event s.entry = .evaluated (.error err)) :
    let s' := (s.perform g).1
    s'.entry = s.entry ∧ s'.value = s.value ∧ s'.result = s.result ∧
      s'.digits = s.digits := by
  intro s'
  obtain ⟨focus, hs'⟩ := s.exists_perform_eq g
  rw [h, Gesture.edit_of_evaluated h] at hs'
  simp only [s', hs']
  exact ⟨trivial, rfl, rfl, rfl⟩

/-- What edits the entry leaves everything else alone. -/
theorem perform_of_edited {s : Session} {g : Gesture}
    (h : g.event s.entry = .edited) :
    let s' := (s.perform g).1
    s'.value = s.value ∧ s'.result = s.result ∧ s'.error = s.error ∧
      s'.trace = s.trace ∧ s'.digits = s.digits := by
  intro s'
  obtain ⟨focus, hs'⟩ := s.exists_perform_eq g
  rw [h] at hs'
  simp only [s', hs']
  exact ⟨rfl, rfl, rfl, rfl, rfl⟩

/-- **The window shows the history of the run.** The outcomes since the results
were last cleared give value, error and trace, what was set since everything
was last cleared gives the decimals, and the labels show them: an error text
if the last outcome is a failure, and a value if any is a success. A failure
leaves entry, value, text and decimals alone, and an edit of the entry all but
the entry. All this holds after every gesture of the run. -/
theorem shown_by_history (gestures : List Gesture) :
    let s := ({} : Session).performAll gestures
    let es := Gesture.events "" gestures
    let outcomes := Event.outcomes es
    s.entry = gestures.foldl Gesture.edit "" ∧
    s.value = (lastSuccess? outcomes).map Trace.value ∧
    s.error = (lastError? outcomes).elim "" Error.message ∧
    s.trace = (lastTrace? outcomes).getD {} ∧
    s.digits = Event.digits es ∧
    s.labels = ["Calculatrice RPN", "Entrée :", "Affichage :", ""]
      ++ ((lastError? outcomes).map Error.message).toList
      ++ ["Résultat :",
          (lastSuccess? outcomes).elim "—"
            fun t => Double.fixedText t.value (Event.digits es),
          "Jetons :", ((lastTrace? outcomes).getD {}).tokens,
          "RPN :", ((lastTrace? outcomes).getD {}).rpn] ∧
    (∀ g err, g.event s.entry = .evaluated (.error err) →
      let s' := (s.perform g).1
      s'.entry = s.entry ∧ s'.value = s.value ∧ s'.result = s.result ∧
        s'.digits = s.digits) ∧
    (∀ g, g.event s.entry = .edited →
      let s' := (s.perform g).1
      s'.value = s.value ∧ s'.result = s.result ∧ s'.error = s.error ∧
        s'.trace = s.trace ∧ s'.digits = s.digits) ∧
    (∀ before g after, gestures = before ++ g :: after →
      ∃ log, (history {} gestures)[before.length]?
        = some (performAll {} (before ++ [g]), log)) := by
  intro s es outcomes
  have hs : s.Consistent := consistent_fresh.performAll gestures
  have h : s.Shows (Event.outcomes ([] ++ es)) (Event.digits ([] ++ es)) :=
    shows_fresh.performAll gestures
  refine ⟨entry_performAll {} gestures, h.value, h.error, h.trace, h.digits,
    h.labels_eq hs, fun _ _ => perform_of_failed, fun _ => perform_of_edited, ?_⟩
  rintro before g after rfl
  exact exists_getElem?_history {} before g after

/-- An expression that breaks off keeps the quotient before it on display. -/
theorem shown_by_history_quotient :
    let s := ({} : Session).performAll [.type "6/2", .enter, .type "1+"]
    Gesture.enter.event s.entry
        = .evaluated (.error (.invalidExpression (.tooShort 2))) ∧
      (Gesture.press .delete).event s.entry = .edited ∧
      s.value = some 3 ∧ (s.perform .enter).1.value = s.value ∧
      (s.perform (.press .delete)).1.trace = s.trace := by
  intro s
  obtain ⟨hentry, hvalue, -, -, -, -, hfailed, hedited, -⟩ :=
    shown_by_history [.type "6/2", .enter, .type "1+"]
  have hquotient : analyse (Text.trimSpaces (Text.firstLine "6/2"))
      = .ok ⟨"6 / 2", "6 2 /", 3⟩ := by
    have htext : Text.trimSpaces (Text.firstLine "6/2") = "6/2" := by decide +kernel
    have hscan : Token.scan "6/2" = .ok [.number "6", .op .div, .number "2"] :=
      Token.scan_eq_ok_iff.mpr (by decide +kernel)
    have hrpn : Rpn.value [.number "6", .number "2", .op .div] = .ok 3 :=
      toOption_eq_some_iff.mp (by decide +kernel)
    rw [htext]
    exact analyse_eq_ok_iff.mpr
      ⟨_, 3, readExpression_eq_ok_iff.mpr ⟨hscan, rfl⟩, hrpn, by decide +kernel⟩
  have hbroken : Gesture.enter.event s.entry
      = .evaluated (.error (.invalidExpression (.tooShort 2))) := by
    have htext : Text.trimSpaces (Text.firstLine "1+") = "1+" := by decide +kernel
    have hscan : Token.scan "1+" = .ok [.number "1", .op .add] :=
      Token.scan_eq_ok_iff.mpr (by decide +kernel)
    have hanalyse : analyse "1+" = .error (.invalidExpression (.tooShort 2)) := by
      rw [analyse, readExpression, hscan]
      rfl
    have hlast : s.entry = "1+" := hentry
    rw [hlast, Gesture.event, htext, hanalyse]
  have hevents : Gesture.events "" [.type "6/2", .enter, .type "1+"]
      = [.edited, .evaluated (analyse (Text.trimSpaces (Text.firstLine "6/2"))),
        .edited] := rfl
  rw [hevents, hquotient] at hvalue
  obtain ⟨-, hkept, -⟩ := hfailed .enter _ hbroken
  obtain ⟨-, -, -, htrace, -⟩ := hedited (.press .delete) rfl
  exact ⟨hbroken, rfl, hvalue, hkept, htrace⟩

end Session

end Calculator
