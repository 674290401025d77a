import CircularArc.Proofs.ArcLength
import CircularArc.Proofs.DistanceOrder
import CircularArc.Proofs.Growing

/-!
# Forward distances within a full turn

A forward distance across half a turn is the rounded sum of two rounded terms, and together these may
exceed a full turn. They do so by at most twice `epsilonUnits`, just what the last rounding takes
back. So all forward distances lie between nothing and a full turn, with the error of two roundings.
-/

set_option autoImplicit false

namespace CircularArc

section Terms

variable {offset : Int} (exact : roundedUnits offset = offset)
include exact

theorem roundedUnits_add_sub_le_of_nonneg (nonneg : 0 ≤ offset) (within : offset ≤ halfTurnUnits) :
    roundedUnits (halfTurnUnits + offset) + roundedUnits (halfTurnUnits - offset) ≤
      2 * halfTurnUnits + 2 * epsilonUnits := by
  have size := halfTurnUnits_eq_mul
  have one := unitsPerOne_eq_mul
  have positive := epsilonUnits_pos
  have lower := two_epsilon_isGrain.near_rounded (halfTurnUnits - offset) (by omega)
  rcases lt_or_ge (halfTurnUnits + offset) (4 * Binary64.unitsPerOne) with near | far
  · have upper := two_epsilon_isGrain.near_rounded (halfTurnUnits + offset) (by omega)
    omega
  · have upper := four_epsilon_isGrain.near_rounded (halfTurnUnits + offset) (by omega)
    rcases le_or_gt (2 * Binary64.unitsPerOne : Int) (halfTurnUnits - offset)
      with coarse | fine
    · have upperAligned : (2 * epsilonUnits : Int) ∣ roundedUnits (halfTurnUnits + offset) :=
        two_epsilon_isGrain.dvd_rounded _ (by omega)
      have lowerAligned : (2 * epsilonUnits : Int) ∣ roundedUnits (halfTurnUnits - offset) :=
        two_epsilon_isGrain.dvd_rounded _ (by omega)
      have boundAligned : (2 * epsilonUnits : Int) ∣ 2 * halfTurnUnits + 2 * epsilonUnits :=
        Int.dvd_add (Dvd.dvd.mul_left two_dvd_halfTurn 2) (Int.dvd_refl _)
      by_contra exceeds
      have apart := add_le_of_lt_of_dvd (not_le.mp exceeds) boundAligned
        (Int.dvd_add upperAligned lowerAligned)
      omega
    · have aligned := epsilon_isGrain.dvd_rounded offset (by omega)
      rw [exact] at aligned
      have turnAligned : (epsilonUnits : Int) ∣ halfTurnUnits :=
        Int.dvd_trans (Int.dvd_mul_left 2 _) two_dvd_halfTurn
      rw [epsilon_isGrain.rounded_of_dvd (Int.dvd_sub turnAligned aligned) (by omega)]
      omega

theorem roundedUnits_add_sub_le (within : offset.natAbs ≤ halfTurnUnits) :
    roundedUnits (halfTurnUnits + offset) + roundedUnits (halfTurnUnits - offset) ≤
      2 * halfTurnUnits + 2 * epsilonUnits := by
  rcases le_total 0 offset with nonneg | nonpos
  · exact roundedUnits_add_sub_le_of_nonneg exact nonneg (by omega)
  · have mirrored := roundedUnits_add_sub_le_of_nonneg
      (show roundedUnits (-offset) = -offset by rw [roundedUnits_neg, exact]) (by omega) (by omega)
    rwa [sub_neg_eq_add, ← sub_eq_add_neg, add_comm] at mirrored

end Terms

theorem forwardUnits_le_fullTurn {source target : Int} (exact : roundedUnits source = source)
    (sourceWithin : source.natAbs ≤ halfTurnUnits) (targetWithin : target.natAbs ≤ halfTurnUnits) :
    forwardUnits source target ≤ 2 * halfTurnUnits := by
  unfold forwardUnits
  split
  · exact roundedUnits_le_of_le roundedUnits_fullTurn (by omega)
  · have terms := roundedUnits_add_sub_le exact sourceWithin
    have beyond := roundedUnits_mono (show target + halfTurnUnits ≤ halfTurnUnits + source by omega)
    have before : roundedUnits (source - halfTurnUnits) = -roundedUnits (halfTurnUnits - source) := by
      rw [← roundedUnits_neg, neg_sub]
    rw [before]
    exact roundedUnits_le_fullTurn (by omega)

namespace Value

variable {source target : Value}

/-- A forward distance of angles lies between nothing and a full turn, has at most the relative error
of two roundings, and is nothing only where there is no way to go. -/
theorem IsAngle.forwardDistance_is_stable (sourceAngle : source.IsAngle)
    (targetAngle : target.IsAngle) :
    ∃ distance, source.forwardDistance target = .ok distance ∧
      (Number.integer 0).le distance = true ∧ distance.le fullTurn = true ∧
      |(number distance).exactValue - forwardGap source.exactValue target.exactValue| ≤
        ((1 + 1 / 2 ^ 53) ^ 2 - 1) * forwardGap source.exactValue target.exactValue ∧
      (distance.same (.integer 0) = true ↔
        forwardGap source.exactValue target.exactValue = 0) := by
  obtain ⟨distance, distanceIs, placed, error⟩ := sourceAngle.forwardDistance targetAngle
  obtain ⟨-, nonneg, none⟩ := sourceAngle.forwardDistance_sign targetAngle distanceIs
  refine ⟨distance, distanceIs, ?_, ?_, error, ?_⟩
  · rw [Number.le_eq_decide integer_zero_isPlaced placed, exactValue_integer_zero, decide_eq_true_eq]
    exact nonneg
  · obtain ⟨sourceNumber, rfl⟩ := sourceAngle.eq_number
    obtain ⟨sourceCount, sourceAt, sourceWithin⟩ := sourceAngle
    obtain ⟨targetCount, targetAt, targetWithin⟩ := targetAngle
    have limit := halfTurnUnits_le_exactLimit
    have exact := Number.roundedUnits_of_position sourceAt (by omega)
    have fullAt : (number fullTurn).position = .units (2 * halfTurnUnits) :=
      Number.real_fullTurn_position
    rw [Number.le_eq_decide placed ⟨_, fullAt⟩, exactValue_of_position fullAt,
      exactValue_forwardDistance sourceAt targetAt sourceWithin targetWithin distanceIs,
      decide_eq_true_eq, unitsValue_le_iff]
    exact forwardUnits_le_fullTurn exact sourceWithin targetWithin
  · rw [Number.same_eq_decide placed integer_zero_isPlaced, exactValue_integer_zero, decide_eq_true_eq]
    exact none

theorem IsAngle.forwardDistance_is_stable_across_half_turn :
    Arc.shortestCrossing.lo.IsAngle ∧ Arc.shortestCrossing.hi.IsAngle ∧
      ∃ distance, Arc.shortestCrossing.lo.forwardDistance Arc.shortestCrossing.hi = .ok distance ∧
        distance.le fullTurn = true ∧ distance.same (.integer 0) = false := by
  have endsAt := Arc.shortestCrossing_endsAt
  have valid := Arc.shortestCrossing_valid
  have size := halfTurnUnits_eq_mul
  have positive := epsilonUnits_pos
  obtain ⟨distance, distanceIs, -, most, -, none⟩ :=
    valid.lo_isAngle.forwardDistance_is_stable valid.hi_isAngle
  refine ⟨valid.lo_isAngle, valid.hi_isAngle, distance, distanceIs, most, ?_⟩
  rw [← Bool.not_eq_true, none, endsAt.lo_exact, endsAt.hi_exact, forwardGap_unitsValue,
    ← unitsValue_zero, unitsValue_inj, spanUnits_of_lt (by omega)]
  omega

end Value

end CircularArc
