import Calculator.Proofs.FirstLine
import Calculator.Proofs.Rpn.Forest
import Calculator.Proofs.Token.Foreign

/-!
# Typing with the keypad alone

A key adds a character that expressions are made of, and the other buttons add
none. So as long as no text is put in the entry in another way, all of it is
evaluated, no evaluation meets a foreign character, and the tokens in the trace
of a success are the whole entry.
-/

namespace Calculator

/-! ## Where foreign characters are met -/

theorem Rpn.value_ne_unexpectedChar (ts : List Token) (c : Char) (position : Nat) :
    Rpn.value ts ≠ .error (.unexpectedChar c position) := by
  intro h
  rcases Rpn.value_eq_error_iff.mp h with
    ⟨_, _, _, _, _, _, hfaulty⟩ | ⟨_, _, _, herror⟩
  · cases hfaulty
  · cases herror

/-- Only the scan of an input meets a foreign character. -/
theorem scan_of_analyse_unexpectedChar {input : String} {c : Char} {position : Nat}
    (h : analyse input = .error (.unexpectedChar c position)) :
    Token.scan input = .error (.unexpectedChar c position) := by
  rw [analyse, bind_eq_error_iff] at h
  rcases h with hread | ⟨ts, _, hvalue⟩
  · rw [readExpression, bind_eq_error_iff] at hread
    rcases hread with hscan | ⟨ts, _, hcheck⟩
    · exact hscan
    · rcases bind_eq_error_iff.mp hcheck with hcheck | ⟨_, _, hreturn⟩
      · obtain ⟨reason, _, herror⟩ := mapError_eq_error_iff.mp hcheck
        cases herror
      · cases hreturn
  · rcases bind_eq_error_iff.mp hvalue with hvalue | ⟨_, _, hreturn⟩
    · exact absurd hvalue (Rpn.value_ne_unexpectedChar _ c position)
    · cases hreturn

/-! ## Entries over the alphabet -/

/-- All characters of an entry are such as expressions are made of. -/
def OverAlphabet (entry : String) : Prop :=
  ∀ c ∈ entry.toList, c ∈ Token.alphabet

theorem Key.char_mem_alphabet (key : Key) : key.char ∈ Token.alphabet := by
  cases key with
  | digit value =>
      apply Token.mem_alphabet_of_isDigit
      rw [Key.char, Nat.isDigit_digitChar]
      simp
  | point => decide
  | symbol s => exact Token.mem_alphabet_iff.mpr (.inr ⟨s, rfl⟩)

namespace OverAlphabet

theorem empty : OverAlphabet "" := by
  intro c hc
  cases hc

variable {entry : String} (h : OverAlphabet entry)

include h

/-- Only a text put in as a whole can bring in other characters. -/
theorem edit {g : Gesture} (hg : ∀ text, g ≠ .type text) :
    OverAlphabet (g.edit entry) := by
  cases g with
  | type text => exact absurd rfl (hg text)
  | press button =>
      cases button with
      | insert key =>
          intro c hc
          rw [Gesture.edit, String.toList_push] at hc
          rcases List.mem_append.mp hc with hc | hc
          · exact h c hc
          · rw [List.mem_singleton.mp hc]
            exact key.char_mem_alphabet
      | delete =>
          intro c hc
          rw [Gesture.edit, String.toList_ofList] at hc
          exact h c ((List.dropLast_sublist _).mem hc)
      | clearEntry => exact empty
      | clearResults => exact h
      | clearAll => exact empty
      | equals => exact h
  | dial value => exact h
  | enter focused => exact h
  | escape => exact empty

theorem edits {gestures : List Gesture} (hg : ∀ text, .type text ∉ gestures) :
    OverAlphabet (gestures.foldl Gesture.edit entry) := by
  induction gestures generalizing entry with
  | nil => exact h
  | cons g gestures ih =>
      apply ih
      · exact h.edit fun text hg' => hg text (by simp [hg'])
      · exact fun text hmem => hg text (List.mem_cons_of_mem g hmem)

theorem firstLine_eq : Text.firstLine entry = entry := by
  have hline : '\n' ∉ entry.toList := fun hmem => absurd (h _ hmem) (by decide)
  rw [Text.firstLine, Text.firstLineChars_eq_self hline, String.ofList_toList]

theorem trimSpaces_eq : Text.trimSpaces entry = entry := by
  have hspace : ' ' ∉ entry.toList := fun hmem => absurd (h _ hmem) (by decide)
  apply Text.trimSpaces_eq_self
  · exact fun hfront => hspace (List.mem_of_mem_head? hfront)
  · exact fun hback => hspace (List.mem_of_mem_getLast? hback)

end OverAlphabet

/-! ## Runs on the keypad -/

/-- An event of a run happens at one of its gestures. -/
theorem Gesture.exists_of_mem_events {entry : String} {gestures : List Gesture}
    {e : Event} (h : e ∈ events entry gestures) :
    ∃ before g after, gestures = before ++ g :: after ∧
      e = g.event (before.foldl edit entry) := by
  induction gestures generalizing entry with
  | nil => cases h
  | cons g gestures ih =>
      rcases List.mem_cons.mp h with rfl | h
      · exact ⟨[], g, gestures, rfl, rfl⟩
      · obtain ⟨before, g', after, rfl, he⟩ := ih h
        exact ⟨g :: before, g', after, rfl, he⟩

/-- An evaluation takes the whole of an entry over the alphabet. -/
theorem OverAlphabet.event_eq {entry : String} (h : OverAlphabet entry) {g : Gesture}
    {outcome : Except Error Trace} (hg : g.event entry = .evaluated outcome) :
    outcome = analyse entry := by
  have hwhole : outcome = analyse (Text.trimSpaces (Text.firstLine entry)) := by
    cases g with
    | press button =>
        cases button with
        | equals => exact (Event.evaluated.inj hg).symm
        | _ => cases hg
    | enter focused =>
        cases focused with
        | false => cases hg
        | true => exact (Event.evaluated.inj hg).symm
    | _ => cases hg
  rw [hwhole, h.firstLine_eq, h.trimSpaces_eq]

namespace Session

/-- A successful evaluation leaves its trace and keeps the entry. -/
theorem perform_of_succeeded {s : Session} {g : Gesture} {t : Trace}
    (h : g.event s.entry = .evaluated (.ok t)) :
    let s' := (s.perform g).1
    s'.trace = t ∧ s'.entry = s.entry := by
  intro s'
  obtain ⟨focus, hs'⟩ := s.exists_perform_eq g
  rw [h, Gesture.edit_of_evaluated h] at hs'
  simp only [s', hs']
  exact ⟨rfl, trivial⟩

/-- A button that adds to the entry adds what is written on it. -/
theorem entry_of_find? {label : String} {nth : Nat} {key : Key}
    (h : Keypad.find? label nth = some (.insert key)) (s : Session) :
    (s.perform (.press (.insert key))).1.entry = s.entry ++ label := by
  rw [entry_perform, Gesture.edit, ← Keypad.label_of_find? h]
  apply String.toList_injective
  simp [Button.label]

/-- **The keypad alone keeps to the alphabet**: after every run in which no text
is put in the entry, the entry has only characters of expressions, nothing is
cut off or taken off it, and all of it is evaluated. No evaluation of the run
meets a foreign character, and after a success the tokens of the trace, without
their spaces, are the entry. Every button is found by its label, and one that
adds to the entry adds its label. -/
theorem entry_of_keypad {gestures : List Gesture}
    (hkeypad : ∀ text, .type text ∉ gestures) :
    let s := ({} : Session).performAll gestures
    (∀ c ∈ s.entry.toList, c ∈ "0123456789.+-*/()".toList) ∧
    Text.firstLine s.entry = s.entry ∧ Text.trimSpaces s.entry = s.entry ∧
    (s.perform (.press .equals)).1 = s.after (.evaluated (analyse s.entry)) ∧
    (∀ outcome, .evaluated outcome ∈ Gesture.events "" gestures →
      ∀ c position, outcome ≠ .error (.unexpectedChar c position)) ∧
    (∀ g t, g.event s.entry = .evaluated (.ok t) →
      let s' := (s.perform g).1
      s'.trace = t ∧ s'.trace.tokens.toList.filter (· != ' ') = s'.entry.toList) ∧
    (∀ button : Button, Keypad.find? button.label 0 = some button) ∧
    (∀ label nth key, Keypad.find? label nth = some (.insert key) →
      (s.perform (.press (.insert key))).1.entry = s.entry ++ label) := by
  intro s
  have hentry : OverAlphabet s.entry := by
    rw [entry_performAll]
    exact OverAlphabet.empty.edits hkeypad
  refine ⟨hentry, hentry.firstLine_eq, hentry.trimSpaces_eq, ?_, ?_, ?_,
    Keypad.find?_label, fun _ _ _ hfound => entry_of_find? hfound s⟩
  · have hwhole : s.expressionText = s.entry := by
      rw [expressionText, hentry.firstLine_eq, hentry.trimSpaces_eq]
    rw [← hwhole, perform_equals]
    exact s.evaluate_fst
  · intro outcome hmem c position
    obtain ⟨before, g, after, rfl, hevent⟩ := Gesture.exists_of_mem_events hmem
    have hbefore : OverAlphabet (before.foldl Gesture.edit "") :=
      OverAlphabet.empty.edits fun text ht => hkeypad text (by simp [ht])
    rw [hbefore.event_eq hevent.symm]
    exact fun herror => Token.scan_ne_error hbefore _ (scan_of_analyse_unexpectedChar herror)
  · intro g t hg s'
    obtain ⟨htrace, hsame⟩ := perform_of_succeeded hg
    refine ⟨htrace, ?_⟩
    obtain ⟨ts, hts⟩ := Traced.of_analyse (hentry.event_eq hg).symm
    rw [htrace, hsame, hts.filter_tokens, ← Text.toList_firstLine, hentry.firstLine_eq]

/-- A product is typed, its second factor corrected, and evaluated. -/
theorem entry_of_keypad_product :
    let gestures : List Gesture := [.press (Keypad.digit 4), .press (Keypad.op .mul),
      .press (Keypad.digit 7), .press .delete, .press (Keypad.digit 5)]
    let s := ({} : Session).performAll gestures
    (∀ text, .type text ∉ gestures) ∧ s.entry = "4*5" ∧
      (s.perform .enter).1.trace.tokens = "4 * 5" ∧
      (s.perform .enter).1.trace.tokens.toList.filter (· != ' ')
        = (s.perform .enter).1.entry.toList := by
  intro gestures s
  have hkeypad : ∀ text, .type text ∉ gestures := by
    intro text
    simp [gestures]
  have hentry : s.entry = "4*5" := by decide +kernel
  obtain ⟨-, hline, htrim, -, -, hsuccess, -, -⟩ := entry_of_keypad hkeypad
  have hevent : Gesture.enter.event s.entry = .evaluated (.ok ⟨"4 * 5", "4 5 *", 20⟩) := by
    rw [Gesture.event, hline, htrim, hentry, analyse_product]
  obtain ⟨htrace, htokens⟩ := hsuccess .enter _ hevent
  exact ⟨hkeypad, hentry, by rw [htrace], htokens⟩

end Session

end Calculator
