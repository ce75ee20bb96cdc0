import Calculator.Session
import Calculator.Proofs.Display

/-!
# The display at full width

The doubles from one sixteenth on are more than one unit of the seventeenth
decimal apart, except that the one just below one sixteenth is nearer to it. So
the double nearest to the rounded value is the value itself; one sixteenth needs
no rounding. Shown with the greatest number of decimals, such a value can be
typed back without any loss, and two of them never show the same text.
-/

namespace Calculator.Double

-- Powers of natural numbers are those of the core library.
attribute [local instance (2000)] instPowNat

/-! ## The distance between doubles -/

/-- Different multiples of a step are at least one step apart. -/
theorem add_le_of_dvd_of_lt {step m n : Nat} (hm : step ∣ m) (hn : step ∣ n) (hlt : m < n) :
    m + step ≤ n := by
  have hle : step ≤ n - m := Nat.le_of_dvd (by omega) (Nat.dvd_sub hn hm)
  omega

/-- Above the start of a binade every other code is at least one step of the
binade away. -/
theorem step_le_dist {c d k : Nat} (hstart : 2 ^ fractionBits * 2 ^ k < unitsOfCode c)
    (hne : d ≠ c) : 2 ^ k ≤ Nat.dist (unitsOfCode c) (unitsOfCode d) := by
  have hc : 2 ^ k ∣ unitsOfCode c := dvd_unitsOfCode (.inr (Nat.le_of_lt hstart))
  have hunits : unitsOfCode d ≠ unitsOfCode c :=
    fun heq => hne (unitsOfCode_strictMono.injective heq)
  by_cases hd : 2 ^ fractionBits * 2 ^ k ≤ unitsOfCode d
  · have hdvd : 2 ^ k ∣ unitsOfCode d := dvd_unitsOfCode (.inr hd)
    unfold Nat.dist
    rcases Nat.lt_or_gt_of_ne hunits with hlt | hlt
    · have := add_le_of_dvd_of_lt hdvd hc hlt
      omega
    · have := add_le_of_dvd_of_lt hc hdvd hlt
      omega
  · -- the start of the binade lies between the two
    have := add_le_of_dvd_of_lt (Nat.dvd_mul_left (2 ^ k) (2 ^ fractionBits)) hc hstart
    unfold Nat.dist
    omega

/-! ## Seventeen decimals -/

/-- The step of the binade of one sixteenth is two to this power, in units. -/
abbrev sixteenthExponent : Nat := 1018

theorem sixteen_mul_sixteenth :
    16 * (2 ^ fractionBits * 2 ^ sixteenthExponent) = unitsPerOne := by
  have hsixteen : 16 = 2 ^ 4 := rfl
  have hexponent : 4 + (fractionBits + sixteenthExponent) = unitExponent := rfl
  rw [hsixteen, ← Nat.pow_add, ← Nat.pow_add, hexponent, unitsPerOne]

/-- One step is more than one unit of the last place. -/
theorem unitsPerOne_lt_step :
    unitsPerOne < 2 ^ sixteenthExponent * 10 ^ maxDigits := by
  have hexponent : unitExponent = sixteenthExponent + 56 := rfl
  rw [unitsPerOne, hexponent, Nat.pow_add]
  exact Nat.mul_lt_mul_of_pos_left (by decide) (Nat.two_pow_pos _)

/-- A value that is a multiple of the last place is not rounded. -/
theorem shownCode_eq_of_dvd {v : Float} {places : Nat}
    (h : unitsPerOne ∣ units v * 10 ^ places) : shownCode v places = code v := by
  obtain ⟨m, hm⟩ := h
  have hexact : roundHalfEven (units v * 10 ^ places) unitsPerOne * unitsPerOne
      = units v * 10 ^ places := by
    rw [hm, Nat.mul_comm unitsPerOne m, roundHalfEven_mul_left unitsPerOne_pos]
  have hnear := dist_shownCode_le v places
  simp only [hexact, Nat.dist_self] at hnear
  have heq := Nat.eq_of_dist_eq_zero (Nat.le_zero.mp hnear)
  have hunits := Nat.eq_of_mul_eq_mul_right (Decimal.ten_pow_pos places) heq
  exact unitsOfCode_strictMono.injective hunits.symm

/-- A value more than one unit of the last place away from all others is nearest
to its rounded value. -/
theorem shownCode_eq_of_lt {v : Float} {places : Nat}
    (h : ∀ d, d ≠ code v →
      unitsPerOne < Nat.dist (units v) (unitsOfCode d) * 10 ^ places) :
    shownCode v places = code v := by
  by_contra hne
  have hnear := dist_units_shownCode_le v places
  rw [Nat.dist_mul_right] at hnear
  exact absurd (h _ hne) (Nat.not_lt.mpr hnear)

theorem shownCode_maxDigits {v : Float} (h : unitsPerOne ≤ 16 * units v) :
    shownCode v maxDigits = code v := by
  rw [← sixteen_mul_sixteenth] at h
  rcases Nat.lt_or_eq_of_le (Nat.le_of_mul_le_mul_left h (by decide)) with hlt | heq
  · apply shownCode_eq_of_lt
    intro d hd
    exact Nat.lt_of_lt_of_le unitsPerOne_lt_step
      (Nat.mul_le_mul_right _ (step_le_dist hlt hd))
  · -- one sixteenth itself has four decimals
    have hten : 10 ^ maxDigits = 16 * (625 * 10 ^ 13) := by decide
    apply shownCode_eq_of_dvd
    refine ⟨625 * 10 ^ 13, ?_⟩
    rw [← heq, ← sixteen_mul_sixteenth, hten, Nat.mul_left_comm, Nat.mul_assoc 16]

theorem coefficient_ne_zero {v : Float} (h : unitsPerOne ≤ 16 * units v) :
    (roundedTo v maxDigits).coefficient ≠ 0 := by
  intro hzero
  have hcode := shownCode_maxDigits h
  rw [shownCode, hzero, nearestCode_eq_zero (by simp)] at hcode
  have hpos := unitsPerOne_pos
  have hunits : units v = 0 := by
    rw [units, ← hcode]
    rfl
  omega

/-- The double that is shown with all decimals is the value itself. -/
theorem shown_maxDigits {v : Float} (hv : v.isFinite = true)
    (h : unitsPerOne ≤ 16 * units v) : shown v maxDigits = v := by
  have hsign : shownNegative v maxDigits = isNegative v := by
    rw [shownNegative, bne_iff_ne.mpr (coefficient_ne_zero h), Bool.and_true]
  rw [shown, hsign, shownCode_maxDigits h, ofCode_code (Nat.le_of_lt (isFinite_iff.mp hv))]

/-! ## From one sixteenth on -/

theorem sixteenth_le_iff {v : Float} (hv : v.isFinite = true) :
    1 / 16 ≤ |number v| ↔ unitsPerOne ≤ 16 * units v := by
  rw [abs_number hv, div_le_div_iff₀ (by norm_num) unitsPerOne_cast_pos, one_mul, mul_comm]
  exact_mod_cast Iff.rfl

/-- **Nothing is lost at full width**: the text of a finite value of magnitude
one sixteenth or more, shown with the greatest number of decimals and entered
between parentheses, has exactly this value, so two such values never show the
same text. -/
theorem evaluate_fixedText_maxDigits {v : Float} (hv : v.isFinite = true)
    (h : 1 / 16 ≤ |number v|) :
    evaluate ("(" ++ fixedText v maxDigits ++ ")") = .ok v ∧
    ∀ w : Float, w.isFinite = true → 1 / 16 ≤ |number w| →
      fixedText v maxDigits = fixedText w maxDigits → v = w := by
  have hback : ∀ u : Float, u.isFinite = true → 1 / 16 ≤ |number u| →
      evaluate ("(" ++ fixedText u maxDigits ++ ")") = .ok u := by
    intro u hu hlarge
    rw [evaluate_fixedText hu, shown_maxDigits hu ((sixteenth_le_iff hu).mp hlarge)]
  refine ⟨hback v hv h, fun w hw hlarge hsame => ?_⟩
  have hvalue := hback v hv h
  rw [hsame, hback w hw hlarge] at hvalue
  exact (Except.ok.inj hvalue).symm

/-- One tenth is not a decimal of seventeen places, but it is the only double that
shows this one. -/
theorem evaluate_fixedText_maxDigits_tenth :
    ((0.1 : Float).isFinite = true ∧ 1 / 16 ≤ |number 0.1| ∧
      fixedText 0.1 maxDigits = "0.10000000000000001") ∧
    evaluate "(0.10000000000000001)" = .ok 0.1 ∧
    ∀ w : Float, w.isFinite = true → 1 / 16 ≤ |number w| →
      "0.10000000000000001" = fixedText w maxDigits → 0.1 = w := by
  have hfinite : (0.1 : Float).isFinite = true := by decide +kernel
  have hlarge : 1 / 16 ≤ |number 0.1| :=
    (sixteenth_le_iff hfinite).mpr (by decide +kernel)
  have htext : fixedText 0.1 maxDigits = "0.10000000000000001" := by decide +kernel
  have hinput : "(" ++ "0.10000000000000001" ++ ")" = "(0.10000000000000001)" := by
    decide +kernel
  have hback := evaluate_fixedText_maxDigits hfinite hlarge
  rw [htext, hinput] at hback
  exact ⟨⟨hfinite, hlarge, htext⟩, hback⟩

/-- Just below one sixteenth two doubles show the same text. -/
example :
    fixedText (0.06249999999999999) maxDigits = "0.06249999999999999" ∧
    fixedText (0.062499999999999986) maxDigits = "0.06249999999999999" ∧
    code 0.062499999999999986 < code 0.06249999999999999 := by
  decide +kernel

end Calculator.Double
