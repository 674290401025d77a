import CircularArc.Proofs.MovedEnds

/-!
# When the ends of a shrunk arc keep their order

The ends of an inverted arc are moved towards each other around the circle. Both are rounded, so they
can pass each other where less is left of the arc than these errors. An arc of less than `4` is
measured too precisely for that, since the errors of the ends and of the length lie on one grid.
-/

set_option autoImplicit false

namespace CircularArc

variable {lo hi count : Int}

theorem completedUnits_of_near (near : lo - hi < 4 * Binary64.unitsPerOne)
    (short : hi - lo + 2 * halfTurnUnits < 4 * Binary64.unitsPerOne) :
    (2 * epsilonUnits : Int) ∣ completedUnits lo hi ∧
      completedUnits lo hi ≤ hi - lo + 2 * halfTurnUnits + epsilonUnits := by
  have size := halfTurnUnits_eq_mul
  have one := unitsPerOne_eq_mul
  have positive := epsilonUnits_pos
  have limitAligned : (2 * epsilonUnits : Int) ∣ 4 * Binary64.unitsPerOne - 2 * halfTurnUnits :=
    Int.dvd_sub (Dvd.dvd.mul_left two_epsilon_dvd_one 4) (Dvd.dvd.mul_left two_dvd_halfTurn 2)
  have limit := two_epsilon_isGrain.rounded_of_dvd limitAligned (by omega)
  have most := roundedUnits_le_of_le limit (show hi - lo ≤ _ by omega)
  have rounding := two_epsilon_isGrain.near_rounded (hi - lo) (by omega)
  have aligned := Int.dvd_add (two_epsilon_isGrain.dvd_rounded (hi - lo) (by omega))
    (Dvd.dvd.mul_left two_dvd_halfTurn 2)
  unfold completedUnits
  rw [two_epsilon_isGrain.rounded_of_dvd aligned (by omega)]
  exact ⟨aligned, by omega⟩

/-- More is measured to be left of an inverted arc of less than `4` than really is, and its lower end
is the one that is moved further out. -/
structure OverestimatedRest (lo hi count : Int) : Prop where
  order : hi < lo
  loWithin : lo.natAbs ≤ halfTurnUnits
  hiWithin : hi.natAbs ≤ halfTurnUnits
  loExact : roundedUnits lo = lo
  short : hi - lo + 2 * halfTurnUnits < 4 * Binary64.unitsPerOne
  kept : 0 < hi - lo + 2 * halfTurnUnits + 2 * count
  little : hi - lo + 2 * halfTurnUnits + 2 * count < 2 * epsilonUnits
  measured : 2 * epsilonUnits < completedUnits lo hi + 2 * count
  outer : -(hi + count) ≤ lo - count

namespace OverestimatedRest

variable (rest : OverestimatedRest lo hi count)
include rest

private theorem dvd_of_far {grain : Int} (far : 4 * Binary64.unitsPerOne ≤ lo - count)
    (completed : grain ∣ completedUnits lo hi) (fine : grain ∣ 4 * epsilonUnits) :
    grain ∣ completedUnits lo hi + 2 * lo - 2 * roundedUnits (lo - count) := by
  obtain ⟨order, loWithin, hiWithin, loExact, short, kept, little, measured, outer⟩ := rest
  have size := halfTurnUnits_eq_mul
  have one := unitsPerOne_eq_mul
  have loAligned := two_epsilon_isGrain.dvd_rounded lo (by omega)
  rw [loExact] at loAligned
  have loTwice : (4 * epsilonUnits : Int) ∣ 2 * lo := by
    rw [show (4 * epsilonUnits : Int) = 2 * (2 * epsilonUnits) by ring]
    exact Int.mul_dvd_mul_left 2 loAligned
  have movedAligned := four_epsilon_isGrain.dvd_rounded (lo - count) (by omega)
  exact Int.dvd_sub (Int.dvd_add completed (Int.dvd_trans fine loTwice))
    (Int.dvd_trans fine (Dvd.dvd.mul_left movedAligned 2))

private theorem ordered_of_fine (near : lo - count < 4 * Binary64.unitsPerOne) :
    roundedUnits (lo - count) + roundedUnits (-(hi + count)) ≤ 2 * halfTurnUnits := by
  obtain ⟨order, loWithin, hiWithin, loExact, short, kept, little, measured, outer⟩ := rest
  have size := halfTurnUnits_eq_mul
  have one := unitsPerOne_eq_mul
  have loNear := two_epsilon_isGrain.near_rounded (lo - count) (by omega)
  have hiNear := two_epsilon_isGrain.near_rounded (-(hi + count)) (by omega)
  have aligned := Int.dvd_add (two_epsilon_isGrain.dvd_rounded (lo - count) (by omega))
    (two_epsilon_isGrain.dvd_rounded (-(hi + count)) (by omega))
  by_contra disorder
  have apart := add_le_of_lt_of_dvd (not_le.mp disorder) (Dvd.dvd.mul_left two_dvd_halfTurn 2) aligned
  omega

private theorem ordered_of_coarse (far : 4 * Binary64.unitsPerOne ≤ lo - count)
    (near : lo - hi < 4 * Binary64.unitsPerOne) :
    roundedUnits (lo - count) + roundedUnits (-(hi + count)) ≤ 2 * halfTurnUnits := by
  have ⟨order, loWithin, hiWithin, loExact, short, kept, little, measured, outer⟩ := rest
  have size := halfTurnUnits_eq_mul
  have one := unitsPerOne_eq_mul
  obtain ⟨completed, completedLe⟩ := completedUnits_of_near near short
  have loNear := four_epsilon_isGrain.near_rounded (lo - count) (by omega)
  have loAligned := four_epsilon_isGrain.dvd_rounded (lo - count) (by omega)
  by_contra disorder
  rw [not_le] at disorder
  rcases lt_or_ge (-(hi + count)) (2 * Binary64.unitsPerOne) with fine | coarse
  · have hiNear := epsilon_isGrain.near_rounded (-(hi + count)) (by omega)
    have hiAligned := epsilon_isGrain.dvd_rounded (-(hi + count)) (by omega)
    have apart := add_le_of_lt_of_dvd disorder
      (Int.dvd_trans (Int.dvd_mul_left 4 _) four_dvd_fullTurn)
      (Int.dvd_add (Int.dvd_trans (Int.dvd_mul_left 4 _) loAligned) hiAligned)
    have gap := add_le_of_lt_of_dvd
      (show completedUnits lo hi + 2 * lo - 2 * roundedUnits (lo - count) < 0 by omega)
      (rest.dvd_of_far far completed ⟨2, by ring⟩) (Int.dvd_zero _)
    omega
  · have hiNear := two_epsilon_isGrain.near_rounded (-(hi + count)) (by omega)
    have hiAligned := two_epsilon_isGrain.dvd_rounded (-(hi + count)) (by omega)
    have apart := add_le_of_lt_of_dvd disorder (Dvd.dvd.mul_left two_dvd_halfTurn 2)
      (Int.dvd_add (Int.dvd_trans ⟨2, by ring⟩ loAligned) hiAligned)
    omega

private theorem dvd_movedHi (far : 4 * Binary64.unitsPerOne ≤ lo - count)
    (apart : 4 * Binary64.unitsPerOne ≤ lo - hi)
    (loAligned : 4 * (epsilonUnits : Int) ∣ roundedUnits (lo - count))
    (disorder : 2 * halfTurnUnits < roundedUnits (lo - count) + roundedUnits (-(hi + count))) :
    2 * (epsilonUnits : Int) ∣ roundedUnits (-(hi + count)) := by
  obtain ⟨order, loWithin, hiWithin, loExact, short, kept, little, measured, outer⟩ := rest
  have size := halfTurnUnits_eq_mul
  have one := unitsPerOne_eq_mul
  rcases lt_or_ge (-(hi + count)) (2 * Binary64.unitsPerOne) with fine | coarse
  · have twoAligned := Dvd.dvd.mul_left two_epsilon_dvd_one 2
    have two := two_epsilon_isGrain.rounded_of_dvd twoAligned (by omega)
    have most := roundedUnits_le_of_le two (show -(hi + count) ≤ _ by omega)
    have completed := completedUnits_of_far loWithin hiWithin order apart
    have loNear := four_epsilon_isGrain.near_rounded (lo - count) (by omega)
    have aligned := epsilon_isGrain.dvd_rounded (-(hi + count)) (by omega)
    have atTwo : roundedUnits (-(hi + count)) = 2 * Binary64.unitsPerOne := by
      by_contra differs
      have below := add_le_of_lt_of_dvd (lt_of_le_of_ne most differs) aligned
        (Int.dvd_trans (Int.dvd_mul_left 2 _) twoAligned)
      have gap := add_le_of_lt_of_dvd disorder
        (Int.dvd_trans (Int.dvd_mul_left 4 _) four_dvd_fullTurn)
        (Int.dvd_add (Int.dvd_trans (Int.dvd_mul_left 4 _) loAligned) aligned)
      omega
    rwa [atTwo]
  · exact two_epsilon_isGrain.dvd_rounded (-(hi + count)) (by omega)

private theorem ordered_of_far (far : 4 * Binary64.unitsPerOne ≤ lo - count)
    (apart : 4 * Binary64.unitsPerOne ≤ lo - hi) :
    roundedUnits (lo - count) + roundedUnits (-(hi + count)) ≤ 2 * halfTurnUnits := by
  have ⟨order, loWithin, hiWithin, loExact, short, kept, little, measured, outer⟩ := rest
  have size := halfTurnUnits_eq_mul
  have one := unitsPerOne_eq_mul
  obtain ⟨completed, completedLe, -⟩ := completedUnits_of_far loWithin hiWithin order apart
  have loNear := four_epsilon_isGrain.near_rounded (lo - count) (by omega)
  have hiNear := two_epsilon_isGrain.near_rounded (-(hi + count)) (by omega)
  have loAligned := four_epsilon_isGrain.dvd_rounded (lo - count) (by omega)
  by_contra disorder
  rw [not_le] at disorder
  have exceeds := add_le_of_lt_of_dvd disorder (Dvd.dvd.mul_left two_dvd_halfTurn 2)
    (Int.dvd_add (Int.dvd_trans ⟨2, by ring⟩ loAligned)
      (rest.dvd_movedHi far apart loAligned disorder))
  have gap := add_le_of_lt_of_dvd
    (show completedUnits lo hi + 2 * lo - 2 * roundedUnits (lo - count) < 0 by omega)
    (rest.dvd_of_far far completed (Int.dvd_refl _)) (Int.dvd_zero _)
  omega

theorem ordered :
    roundedUnits (lo - count) + roundedUnits (-(hi + count)) ≤ 2 * halfTurnUnits := by
  rcases lt_or_ge (lo - count) (4 * Binary64.unitsPerOne) with fine | coarse
  · exact rest.ordered_of_fine fine
  · rcases lt_or_ge (lo - hi) (4 * Binary64.unitsPerOne) with near | far
    · exact rest.ordered_of_coarse coarse near
    · exact rest.ordered_of_far coarse far

end OverestimatedRest

/-- The ends do not pass each other where more is left than the rounding of an end. -/
theorem InvertedCounts.ordered_of_ample (counts : InvertedCounts lo hi) (negative : count < 0)
    (ample : 2 * epsilonUnits ≤ hi - lo + 2 * halfTurnUnits + 2 * count) :
    roundedUnits (lo - count) ≤ roundedUnits (hi + count) + 2 * halfTurnUnits := by
  obtain ⟨above, order, below, -, -⟩ := counts
  have loRounding := turnRounding (lo - count) (by omega)
  have hiRounding := turnRounding (hi + count) (by omega)
  have loCanonical := loRounding.canonical_exact
  have hiCanonical := hiRounding.canonical_exact
  obtain ⟨loLe, loGe, loFine, -, -⟩ := loRounding
  obtain ⟨hiLe, hiGe, hiFine, -, -⟩ := hiRounding
  rcases le_or_gt (roundedUnits (lo - count)) halfTurnUnits with loStays | loTurns
  · rcases lt_or_ge (-(halfTurnUnits : Int)) (roundedUnits (hi + count)) with hiStays | hiTurns
    · omega
    · rw [canonicalUnits_of_le hiTurns] at hiCanonical
      exact roundedUnits_le_of_le hiCanonical (by omega)
  · rw [canonicalUnits_of_gt loTurns] at loCanonical
    have ordered := le_roundedUnits_of_le loCanonical (show _ ≤ hi + count by omega)
    omega

theorem InvertedCounts.ordered (counts : InvertedCounts lo hi) (negative : count < 0)
    (kept : 0 < hi - lo + 2 * halfTurnUnits + 2 * count)
    (measured : 2 * epsilonUnits < completedUnits lo hi + 2 * count)
    (clear : ¬ (4 * Binary64.unitsPerOne ≤ hi - lo + 2 * halfTurnUnits ∧
      hi - lo + 2 * halfTurnUnits + 2 * count < 2 * epsilonUnits)) :
    roundedUnits (lo - count) ≤ roundedUnits (hi + count) + 2 * halfTurnUnits := by
  by_cases ample : 2 * epsilonUnits ≤ hi - lo + 2 * halfTurnUnits + 2 * count
  · exact counts.ordered_of_ample negative ample
  obtain ⟨above, order, below, loExact, hiExact⟩ := counts
  have hiReflected : roundedUnits (-(hi + count)) = -roundedUnits (hi + count) := roundedUnits_neg _
  rcases le_total (-(hi + count)) (lo - count) with outer | inner
  · have rest : OverestimatedRest lo hi count :=
      ⟨order, by omega, by omega, loExact, by omega, kept, by omega, measured, outer⟩
    have ordered := rest.ordered
    omega
  · have reflected : completedUnits (-hi) (-lo) = completedUnits lo hi := by
      rw [completedUnits, completedUnits, neg_sub_neg]
    have rest : OverestimatedRest (-hi) (-lo) count := by
      refine ⟨by omega, by omega, by omega, by rw [roundedUnits_neg, hiExact], by omega, by omega,
        by omega, by rwa [reflected], by omega⟩
    have ordered := rest.ordered
    rw [show -hi - count = -(hi + count) by ring, show -(-lo + count) = lo - count by ring] at ordered
    omega

end CircularArc
