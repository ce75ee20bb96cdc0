/-!
# The longest run at the front of a list

A run of elements with a property ends where the next element lacks it, or
with the list.
-/

namespace Calculator

variable {α : Type} {p : α → Bool} {run rest : List α}

theorem takeWhile_run (hrun : ∀ a ∈ run, p a = true)
    (hrest : ∀ a ∈ rest.head?, p a = false) :
    (run ++ rest).takeWhile p = run := by
  rw [List.takeWhile_append_of_pos hrun]
  cases rest with
  | nil => simp
  | cons a rest => simp [hrest a rfl]

theorem dropWhile_eq_self (hrest : ∀ a ∈ rest.head?, p a = false) :
    rest.dropWhile p = rest := by
  cases rest with
  | nil => rfl
  | cons a rest => simp [hrest a rfl]

theorem dropWhile_run (hrun : ∀ a ∈ run, p a = true)
    (hrest : ∀ a ∈ rest.head?, p a = false) :
    (run ++ rest).dropWhile p = rest := by
  rw [List.dropWhile_append_of_pos hrun, dropWhile_eq_self hrest]

theorem takeWhile_whole (hrun : ∀ a ∈ run, p a = true) :
    run.takeWhile p = run := by
  have h : (run ++ []).takeWhile p = run := takeWhile_run hrun (by simp)
  rwa [List.append_nil] at h

theorem dropWhile_whole (hrun : ∀ a ∈ run, p a = true) :
    run.dropWhile p = [] := by
  have h : (run ++ []).dropWhile p = [] := dropWhile_run hrun (by simp)
  rwa [List.append_nil] at h

/-- An element without the property ends the run, whatever follows it. -/
theorem takeWhile_append_cons {a : α} (ha : p a = false) (as bs : List α) :
    (as ++ a :: bs).takeWhile p = as.takeWhile p := by
  induction as with
  | nil => simp [ha]
  | cons b as ih =>
      by_cases hb : p b = true
      · simp [hb, ih]
      · simp [hb]

theorem dropWhile_append_cons {a : α} (ha : p a = false) (as bs : List α) :
    (as ++ a :: bs).dropWhile p = as.dropWhile p ++ a :: bs := by
  induction as with
  | nil => simp [ha]
  | cons b as ih =>
      by_cases hb : p b = true
      · simp [hb, ih]
      · simp [hb]

/-- What is taken from the front and what is left are all there was. -/
theorem count_takeWhile_add_dropWhile [BEq α] (p : α → Bool) (as : List α) (a : α) :
    (as.takeWhile p).count a + (as.dropWhile p).count a = as.count a := by
  rw [← List.count_append, List.takeWhile_append_dropWhile]

theorem head_dropWhile (p : α → Bool) (as : List α) :
    ∀ a ∈ (as.dropWhile p).head?, p a = false := by
  intro a ha
  have h := List.head?_dropWhile_not p as
  rw [Option.mem_def.mp ha] at h
  exact h

end Calculator
