import Calculator.Proofs.Session

/-!
# Three streams of changes

Apart from starting over and from moving the keyboard, a change is about the
entry, about the number of decimals, or about the outcome. Changes about
different things commute, also where one makes the text of the value and the
other sets the number of decimals, because the text is always made anew from
the value. So only the order within each stream counts, however the three are
interleaved.
-/

namespace Calculator.Session

/-! ## Streams -/

/-- What a change can be about. -/
inductive Stream where
  | entry
  | display
  | outcome
deriving DecidableEq

/-- What a change is about, if it is about one thing alone. -/
def Change.stream? : Change → Option Stream
  | .setEntry _ | .clearEntry => some .entry
  | .setDigits _ => some .display
  | .setResult _ | .setError _ | .clearResults => some .outcome
  | .clearAll | .unfocus => none

/-- Every change is about one thing alone. -/
def Streamed (changes : List Change) : Prop :=
  ∀ c ∈ changes, c.stream? ≠ none

/-- The changes of one stream, in their order. -/
def part (a : Stream) (changes : List Change) : List Change :=
  changes.filter (·.stream? = some a)

/-- The changes of the other streams, in their order. -/
def others (a : Stream) (changes : List Change) : List Change :=
  changes.filter (·.stream? ≠ some a)

section Parts

variable {c : Change} {a b : Stream} {changes : List Change}

theorem mem_part_iff : c ∈ part a changes ↔ c ∈ changes ∧ c.stream? = some a := by
  simp [part]

theorem mem_others_iff : c ∈ others a changes ↔ c ∈ changes ∧ c.stream? ≠ some a := by
  simp [others]

theorem Streamed.exists_stream (h : Streamed changes) (hc : c ∈ changes) :
    ∃ b, c.stream? = some b :=
  Option.ne_none_iff_exists'.mp (h c hc)

theorem Streamed.tail (h : Streamed (c :: changes)) : Streamed changes :=
  fun d hd => h d (List.mem_cons_of_mem c hd)

theorem Streamed.part (h : Streamed changes) (a : Stream) : Streamed (part a changes) :=
  fun d hd => h d (mem_part_iff.mp hd).1

theorem Streamed.others (h : Streamed changes) (a : Stream) :
    Streamed (others a changes) :=
  fun d hd => h d (mem_others_iff.mp hd).1

theorem part_others (h : b ≠ a) : Session.part b (Session.others a changes)
    = Session.part b changes := by
  rw [Session.part, Session.others, List.filter_filter, Session.part]
  apply List.filter_congr
  intro c _
  by_cases hc : c.stream? = some b
  · simp [hc, h]
  · simp [hc]

/-- There are three streams and no more. -/
theorem Streamed.others_others (h : Streamed changes) :
    Session.others .display (Session.others .entry changes)
      = Session.part .outcome changes := by
  rw [Session.others, Session.others, List.filter_filter, Session.part]
  apply List.filter_congr
  intro c hc
  obtain ⟨a, ha⟩ := h.exists_stream hc
  cases a <;> simp [ha]

end Parts

/-! ## Changes that commute -/

section Commute

variable {c d : Change} {a b : Stream}

/-- No change about something else looks at the entry. -/
theorem apply_comm_of_entry (hc : c.stream? = some .entry) (hd : d.stream? = some b)
    (hb : b ≠ .entry) (s : Session) : (s.apply c).apply d = (s.apply d).apply c := by
  cases c <;> cases hc <;> cases d <;> cases hd <;> first
    | exact absurd rfl hb
    | rfl

/-- An outcome and a number of decimals both make the text of the value, and
whichever comes last makes it from the value and from the number that is set. -/
theorem apply_comm_of_display (hc : c.stream? = some .display)
    (hd : d.stream? = some .outcome) (s : Session) :
    (s.apply c).apply d = (s.apply d).apply c := by
  cases c <;> cases hc
  cases d with
  | setResult trace => rfl
  | setError message => rfl
  | clearResults => rfl
  | _ => cases hd

/-- Changes about different things commute in every session. -/
theorem apply_comm (hc : c.stream? = some a) (hd : d.stream? = some b) (hne : a ≠ b)
    (s : Session) : (s.apply c).apply d = (s.apply d).apply c := by
  cases a with
  | entry => exact apply_comm_of_entry hc hd hne.symm s
  | display =>
      cases b with
      | entry => exact (apply_comm_of_entry hd hc hne s).symm
      | display => exact absurd rfl hne
      | outcome => exact apply_comm_of_display hc hd s
  | outcome =>
      cases b with
      | entry => exact (apply_comm_of_entry hd hc hne s).symm
      | display => exact (apply_comm_of_display hd hc s).symm
      | outcome => exact absurd rfl hne

end Commute

/-! ## Runs of changes -/

section Runs

variable {changes : List Change}

/-- A change may be made before or after changes about other things. -/
theorem applyAll_comm {c : Change} {a : Stream} (hc : c.stream? = some a)
    (hstreamed : Streamed changes) (hne : ∀ d ∈ changes, d.stream? ≠ some a)
    (s : Session) : (s.apply c).applyAll changes = (s.applyAll changes).apply c := by
  induction changes generalizing s with
  | nil => rfl
  | cons d changes ih =>
      obtain ⟨b, hd⟩ := hstreamed.exists_stream (List.mem_cons_self (a := d))
      have hab : a ≠ b := by
        rintro rfl
        exact hne d (by simp) hd
      rw [applyAll_cons, applyAll_cons, apply_comm hc hd hab,
        ih hstreamed.tail fun e he => hne e (List.mem_cons_of_mem d he)]

/-- The changes of one stream may all be made first. -/
theorem applyAll_eq_part_others (hstreamed : Streamed changes) (a : Stream)
    (s : Session) :
    s.applyAll changes = (s.applyAll (part a changes)).applyAll (others a changes) := by
  induction changes generalizing s with
  | nil => rfl
  | cons c changes ih =>
      obtain ⟨b, hb⟩ := hstreamed.exists_stream (List.mem_cons_self (a := c))
      rw [applyAll_cons, ih hstreamed.tail]
      by_cases hc : c.stream? = some a
      · simp [part, others, hc]
      · -- the change waits until those of the stream are made
        have hpart : part a (c :: changes) = part a changes := by simp [part, hc]
        have hothers : others a (c :: changes) = c :: others a changes := by
          simp [others, hc]
        have hne : ∀ d ∈ part a changes, d.stream? ≠ some b := by
          intro d hd hdb
          exact hc (hb.trans (hdb.symm.trans (mem_part_iff.mp hd).2))
        rw [hpart, hothers, applyAll_cons,
          applyAll_comm hb (hstreamed.tail.part a) hne]

/-- Nothing but the order within each stream counts. -/
theorem applyAll_eq_parts (hstreamed : Streamed changes) (s : Session) :
    s.applyAll changes
      = ((s.applyAll (part .entry changes)).applyAll (part .display changes)).applyAll
          (part .outcome changes) := by
  rw [applyAll_eq_part_others hstreamed .entry,
    applyAll_eq_part_others (hstreamed.others .entry) .display,
    part_others (by decide), hstreamed.others_others]

/-! ## What a stream leaves behind -/

/-- What no change of a list touches is as it was. -/
theorem applyAll_frame {α : Type} {f : Session → α}
    (h : ∀ c ∈ changes, ∀ s : Session, f (s.apply c) = f s) (s : Session) :
    f (s.applyAll changes) = f s := by
  induction changes generalizing s with
  | nil => rfl
  | cons c changes ih =>
      rw [applyAll_cons, ih fun d hd => h d (List.mem_cons_of_mem c hd)]
      exact h c (by simp) s

/-- What only the changes of one stream touch is what these alone leave
behind. -/
theorem applyAll_part {α : Type} {f : Session → α} {a : Stream}
    (hframe : ∀ c b, c.stream? = some b → b ≠ a → ∀ s : Session, f (s.apply c) = f s)
    (hstreamed : Streamed changes) (s : Session) :
    f (s.applyAll changes) = f (s.applyAll (part a changes)) := by
  rw [applyAll_eq_part_others hstreamed a]
  apply applyAll_frame
  intro c hc
  obtain ⟨b, hb⟩ := (hstreamed.others a).exists_stream hc
  refine hframe c b hb ?_
  rintro rfl
  exact (mem_others_iff.mp hc).2 hb

end Runs

section Fields

variable {c : Change} {a : Stream} (hc : c.stream? = some a)

include hc

theorem entry_apply (ha : a ≠ .entry) (s : Session) : (s.apply c).entry = s.entry := by
  cases c <;> cases hc <;> first
    | exact absurd rfl ha
    | rfl

theorem digits_apply (ha : a ≠ .display) (s : Session) :
    (s.apply c).digits = s.digits := by
  cases c <;> cases hc <;> first
    | exact absurd rfl ha
    | rfl

/-- The outcome: value, error and trace. -/
theorem outcome_apply (ha : a ≠ .outcome) (s : Session) :
    ((s.apply c).value, (s.apply c).error, (s.apply c).trace)
      = (s.value, s.error, s.trace) := by
  cases c <;> cases hc <;> first
    | exact absurd rfl ha
    | rfl

end Fields

/-- **The streams are independent**: two runs of changes with the same changes
about the entry, about the decimals and about the outcome, each in the same
order, lead to the same session, however they are interleaved. Each stream
alone leaves its own fields behind. The text is that of the value at the number
of decimals set last, whatever was shown before; so a result that is the last
outcome is rounded once. -/
theorem streams_independent (before : List Change) {changes changes' : List Change}
    (hstreamed : Streamed changes) (hstreamed' : Streamed changes')
    (hparts : ∀ a, part a changes = part a changes') :
    let s := ({} : Session).applyAll before
    let s' := s.applyAll changes
    s' = s.applyAll changes' ∧
    s'.entry = (s.applyAll (part .entry changes)).entry ∧
    s'.digits = (s.applyAll (part .display changes)).digits ∧
    (s'.value, s'.error, s'.trace)
      = ((s.applyAll (part .outcome changes)).value,
          (s.applyAll (part .outcome changes)).error,
          (s.applyAll (part .outcome changes)).trace) ∧
    (∀ v, s'.value = some v → s'.result = Double.fixedText v s'.digits) ∧
    (∀ outcomes t displays n, part .outcome changes = outcomes ++ [.setResult t] →
      part .display changes = displays ++ [.setDigits n] →
      s'.result = Double.fixedText t.value (min n maxDigits)) := by
  intro s s'
  have hsame : s' = s.applyAll changes' := by
    rw [applyAll_eq_parts hstreamed', ← hparts, ← hparts, ← hparts]
    exact applyAll_eq_parts hstreamed s
  have hconsistent : s'.Consistent :=
    (consistent_fresh.applyAll before).applyAll changes
  have hentry : s'.entry = (s.applyAll (part .entry changes)).entry :=
    applyAll_part (f := entry) (fun _ _ => entry_apply) hstreamed s
  have hdigits : s'.digits = (s.applyAll (part .display changes)).digits :=
    applyAll_part (f := digits) (fun _ _ => digits_apply) hstreamed s
  have houtcome := applyAll_part (f := fun s => (s.value, s.error, s.trace))
    (fun _ _ => outcome_apply) hstreamed s
  refine ⟨hsame, hentry, hdigits, houtcome, fun v => hconsistent.result_of_some, ?_⟩
  intro outcomes t displays n hresult hdisplay
  have hvalue : s'.value = some t.value := by
    rw [show s'.value = _ from congrArg Prod.fst houtcome, hresult, applyAll_append]
    rfl
  have hshown : s'.digits = min n maxDigits := by
    rw [hdigits, hdisplay, applyAll_append]
    rfl
  rw [hconsistent.result_of_some hvalue, hshown]

/-- Two decimals are asked for first or last but one; at the end the four
decimals are those of the quotient and not of a rounded text. -/
theorem streams_independent_two_thirds :
    let quotient : Trace := ⟨"2 / 3", "2 3 /", 2 / 3⟩
    let changes := [.setDigits 2, .setResult quotient, .clearEntry, .setDigits 4]
    let changes' := [.clearEntry, .setResult quotient, .setDigits 2, .setDigits 4]
    let s := ({} : Session).applyAll [.setEntry "2/3", .unfocus]
    (Streamed changes ∧ Streamed changes' ∧ ∀ a, part a changes = part a changes') ∧
      s.applyAll changes = s.applyAll changes' ∧
      (s.applyAll changes).result = "0.6667" := by
  intro quotient changes changes' s
  have hstreamed : Streamed changes := by simp [Streamed, changes, Change.stream?]
  have hstreamed' : Streamed changes' := by simp [Streamed, changes', Change.stream?]
  have hparts : ∀ a, part a changes = part a changes' := by
    intro a
    cases a <;> rfl
  have htext : Double.fixedText (2 / 3) 4 = "0.6667" := by decide +kernel
  obtain ⟨hsame, -, -, -, -, hresult⟩ :=
    streams_independent [.setEntry "2/3", .unfocus] hstreamed hstreamed' hparts
  have hrounded : (s.applyAll changes).result = Double.fixedText (2 / 3) 4 :=
    hresult [] quotient [.setDigits 2] 4 rfl rfl
  exact ⟨⟨hstreamed, hstreamed', hparts⟩, hsame, hrounded.trans htext⟩

end Calculator.Session
