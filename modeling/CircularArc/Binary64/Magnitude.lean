import CircularArc.Rounding

/-!
# Magnitudes with 53 significant bits

Magnitudes are counted in units of `2 ^ -1074`, the smallest positive number of the format.
`spacing` is the gap from a magnitude to the next larger one, and a magnitude is `Representable` when
it is a multiple of its own spacing and lies below the limit `2 ^ 1024`. `nearestMagnitude` rounds:
it moves a magnitude by at most half its spacing, keeps the order of magnitudes, and leaves
representable ones as they are.
-/

set_option autoImplicit false

namespace CircularArc

/-- The gap, in units, between a magnitude and the next larger one: the place of the last of its
53 significant bits, and never less than a unit. -/
def spacing (units : Nat) : Nat := Nat.pow 2 (units.log2 - 52)

theorem spacing_pos (units : Nat) : 0 < spacing units := Nat.two_pow_pos _

@[irreducible] def magnitudeLimit : Nat := Nat.pow 2 2098

theorem magnitudeLimit_pos : 0 < magnitudeLimit := by
  unfold magnitudeLimit
  -- With a variable exponent nothing tries to evaluate the power.
  generalize 2098 = exponent
  exact Nat.two_pow_pos exponent

/-- A magnitude of the format: at most 53 significant bits, and below the limit. -/
def Representable (units : Nat) : Prop := units < magnitudeLimit ∧ spacing units ∣ units

instance : DecidablePred Representable := fun units =>
  inferInstanceAs (Decidable (units < magnitudeLimit ∧ spacing units ∣ units))

theorem spacing_dvd_scaled {significand : Nat} (bound : significand ≤ Nat.pow 2 53)
    (exponent : Nat) :
    spacing (significand * Nat.pow 2 exponent) ∣ significand * Nat.pow 2 exponent := by
  unfold spacing
  simp only [Nat.pow_eq] at bound ⊢
  by_cases carry : significand = 2 ^ 53
  · subst carry
    rw [← Nat.pow_add, Nat.log2_two_pow]
    exact Nat.pow_dvd_pow 2 (by omega)
  · by_cases zero : significand = 0
    · simp [zero]
    · refine Nat.dvd_trans (Nat.pow_dvd_pow 2 ?_) (Nat.dvd_mul_left _ _)
      have nonzero : significand * 2 ^ exponent ≠ 0 :=
        Nat.mul_ne_zero zero (Nat.ne_of_gt (Nat.two_pow_pos _))
      have below : (significand * 2 ^ exponent).log2 < 53 + exponent := by
        rw [Nat.log2_lt nonzero, Nat.pow_add]
        exact Nat.mul_lt_mul_of_pos_right (by omega) (Nat.two_pow_pos _)
      omega

/-- The multiple of its spacing that is nearest to a magnitude, ties to even. -/
def nearestMagnitude (units : Nat) : Nat :=
  nearestQuotient units (spacing units) * spacing units

theorem nearestMagnitude_of_representable {units : Nat} (aligned : Representable units) :
    nearestMagnitude units = units := by
  obtain ⟨quotient, multiple⟩ := aligned.2
  unfold nearestMagnitude
  have divided : nearestQuotient units (spacing units) = quotient := by
    have exact := nearestQuotient_mul quotient (spacing_pos units)
    rwa [Nat.mul_comm, ← multiple] at exact
  rw [divided, Nat.mul_comm, ← multiple]

theorem spacing_dvd_nearestMagnitude (units : Nat) :
    spacing (nearestMagnitude units) ∣ nearestMagnitude units := by
  have quotientBound : nearestQuotient units (spacing units) ≤ Nat.pow 2 53 := by
    refine Nat.le_trans (nearestQuotient_le _ _) (Nat.succ_le_of_lt ?_)
    rw [Nat.div_lt_iff_lt_mul (spacing_pos units)]
    refine Nat.lt_of_lt_of_le Nat.lt_log2_self ?_
    unfold spacing
    simp only [Nat.pow_eq]
    rw [← Nat.pow_add]
    exact Nat.pow_le_pow_right (by decide) (by omega)
  exact spacing_dvd_scaled quotientBound _

theorem nearestMagnitude_bounds (units : Nat) :
    2 * units ≤ 2 * nearestMagnitude units + spacing units ∧
      2 * nearestMagnitude units ≤ 2 * units + spacing units :=
  nearestQuotient_mul_bounds units (spacing_pos units)

theorem nearestMagnitude_within {units : Nat} (nonzero : units ≠ 0) :
    Nat.pow 2 units.log2 ≤ nearestMagnitude units ∧
      nearestMagnitude units ≤ Nat.pow 2 (units.log2 + 1) := by
  simp only [Nat.pow_eq]
  have powerBelow : nearestMagnitude (2 ^ units.log2) = 2 ^ units.log2 := by
    unfold nearestMagnitude spacing
    simp only [Nat.pow_eq]
    rw [Nat.log2_two_pow]
    have exact := nearestQuotient_mul (2 ^ (units.log2 - (units.log2 - 52)))
      (Nat.two_pow_pos (units.log2 - 52))
    rw [← Nat.pow_add, Nat.sub_add_cancel (Nat.sub_le _ _)] at exact
    rw [exact, ← Nat.pow_add, Nat.sub_add_cancel (Nat.sub_le _ _)]
  constructor
  · have sameSpacing : spacing (2 ^ units.log2) = spacing units := by
      unfold spacing
      rw [Nat.log2_two_pow]
    have order := nearestQuotient_mono (Nat.log2_self_le nonzero) (spacing units)
    have scaled := Nat.mul_le_mul_right (spacing units) order
    unfold nearestMagnitude at powerBelow
    rw [sameSpacing] at powerBelow
    rwa [powerBelow] at scaled
  · have multiple : 2 ^ (units.log2 + 1 - (units.log2 - 52)) * spacing units =
        2 ^ (units.log2 + 1) := by
      unfold spacing
      simp only [Nat.pow_eq]
      rw [← Nat.pow_add]
      congr 1
      omega
    have order := nearestQuotient_mono
      (Nat.le_of_lt (Nat.lt_of_lt_of_eq Nat.lt_log2_self multiple.symm)) (spacing units)
    rw [nearestQuotient_mul _ (spacing_pos units)] at order
    rw [← multiple]
    exact Nat.mul_le_mul_right _ order

theorem nearestMagnitude_mono {smaller larger : Nat} (order : smaller ≤ larger) :
    nearestMagnitude smaller ≤ nearestMagnitude larger := by
  by_cases zero : smaller = 0
  · subst zero
    simp [nearestMagnitude, nearestQuotient, spacing]
  · have logOrder : smaller.log2 ≤ larger.log2 :=
      (Nat.le_log2 (by omega)).2 (Nat.le_trans (Nat.log2_self_le zero) order)
    by_cases sameLog : smaller.log2 = larger.log2
    · unfold nearestMagnitude spacing
      rw [sameLog]
      exact Nat.mul_le_mul_right _ (nearestQuotient_mono order _)
    · refine Nat.le_trans (nearestMagnitude_within zero).2
        (Nat.le_trans ?_ (nearestMagnitude_within (by omega)).1)
      exact Nat.pow_le_pow_right (by decide) (by omega)

theorem representable_zero : Representable 0 := ⟨magnitudeLimit_pos, Nat.dvd_zero _⟩

end CircularArc
