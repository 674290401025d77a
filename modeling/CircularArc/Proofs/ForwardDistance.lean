import CircularArc.Proofs.Angles

/-!
# Forward distances

The forward distance of two angles never fails, depends on their positions only, and has at most the
relative error of two roundings.
-/

set_option autoImplicit false

namespace CircularArc

theorem representable_fullTurnUnits : Representable fullTurnUnits := by decide +kernel

/-- The count of units at which the forward distance of two angles comes out. -/
def forwardUnits (source target : Int) : Int :=
  if source ≤ target then roundedUnits (target - source)
  else roundedUnits
    (roundedUnits (target + halfTurnUnits) - roundedUnits (source - halfTurnUnits))

theorem roundedUnits_neg_iff {total : Int} : roundedUnits total < 0 ↔ total < 0 := by
  constructor
  · intro negative
    by_contra nonneg
    have := roundedUnits_nonneg (not_lt.mp nonneg)
    omega
  · intro negative
    have unit : roundedUnits (-1) = -1 := roundedUnits_of_representable (by decide +kernel)
    have := roundedUnits_mono (show total ≤ -1 by omega)
    omega

private theorem unitsValue_scaled {count significand exponent low : Nat}
    (scaled : count = significand * Nat.pow 2 exponent) (total : low + exponent = 1074) :
    unitsValue count = significand / 2 ^ low := by
  rw [scaled, unitsValue, ← total, pow_add, Int.cast_natCast, Nat.cast_mul, Nat.pow_eq,
    Nat.cast_pow, Nat.cast_ofNat, mul_div_mul_right _ _ (pow_ne_zero _ two_ne_zero)]

private theorem halfTurnUnits_eq : halfTurnUnits = 7074237752028440 * Nat.pow 2 1023 := by
  unfold halfTurnUnits
  exact Eq.refl _

theorem halfCircle_lt : halfCircle < 7 / 2 := by
  have scaled : halfCircle = (7074237752028440 : Nat) / 2 ^ 51 :=
    unitsValue_scaled halfTurnUnits_eq (show 51 + 1023 = 1074 from rfl)
  rw [scaled]
  norm_num

/-- The allowance for two roundings, one after the other. -/
def twoRoundings : ℚ := (1 + 1 / 2 ^ 53) ^ 2 - 1

private theorem twice_rounded_error {beyond before : Int} (beyondNonneg : 0 ≤ beyond)
    (beforeNonpos : before ≤ 0) :
    |unitsValue (roundedUnits (roundedUnits beyond - roundedUnits before)) -
        (unitsValue beyond - unitsValue before)| ≤
      twoRoundings * (unitsValue beyond - unitsValue before) := by
  have beyondError := abs_unitsValue_roundedUnits_sub_le beyond
  have beforeError := abs_unitsValue_roundedUnits_sub_le before
  have error := abs_unitsValue_roundedUnits_sub_le (roundedUnits beyond - roundedUnits before)
  have beyondSign : 0 ≤ unitsValue beyond := by
    rwa [← unitsValue_zero, unitsValue_le_iff]
  have beforeSign : unitsValue before ≤ 0 := by
    rwa [← unitsValue_zero, unitsValue_le_iff]
  rw [abs_of_nonneg beyondSign, abs_le] at beyondError
  rw [abs_of_nonpos beforeSign, abs_le] at beforeError
  rw [unitsValue_sub] at error
  have differenceSign :
      0 ≤ unitsValue (roundedUnits beyond) - unitsValue (roundedUnits before) := by
    linarith
  rw [abs_of_nonneg differenceSign, abs_le] at error
  unfold twoRoundings
  rw [abs_le]
  constructor <;> linarith

theorem unitsValue_forwardUnits_error {source target : Int}
    (sourceWithin : source.natAbs ≤ halfTurnUnits) (targetWithin : target.natAbs ≤ halfTurnUnits) :
    |unitsValue (forwardUnits source target) -
        forwardGap (unitsValue source) (unitsValue target)| ≤
      twoRoundings * forwardGap (unitsValue source) (unitsValue target) := by
  unfold forwardUnits forwardGap
  simp only [unitsValue_le_iff]
  by_cases order : source ≤ target
  · have error := abs_unitsValue_roundedUnits_sub_le (target - source)
    have nonneg : 0 ≤ unitsValue (target - source) := by
      rw [← unitsValue_zero, unitsValue_le_iff]
      omega
    rw [abs_of_nonneg nonneg] at error
    rw [if_pos order, if_pos order, ← unitsValue_sub]
    unfold twoRoundings
    linarith
  · have gap : unitsValue target - unitsValue source + 2 * halfCircle =
        unitsValue (target + halfTurnUnits) - unitsValue (source - halfTurnUnits) := by
      rw [unitsValue_add, unitsValue_sub, halfCircle]
      ring
    rw [if_neg order, if_neg order, gap]
    exact twice_rounded_error (by omega) (by omega)

namespace Number

variable {source target : Number} {sourceCount targetCount : Int}

theorem forwardDistance_of_position (sourceAt : source.position = .units sourceCount)
    (targetAt : target.position = .units targetCount)
    (sourceWithin : sourceCount.natAbs ≤ halfTurnUnits)
    (targetWithin : targetCount.natAbs ≤ halfTurnUnits) :
    ∃ distance, source.forwardDistance target = .ok distance ∧
      distance.position = .units (forwardUnits sourceCount targetCount) := by
  have limit := halfTurnUnits_le_exactLimit
  have zeroAt : (integer 0).position = .units 0 := by
    simp [position]
  obtain ⟨difference, differs, differenceAt⟩ :=
    sub_of_position targetAt sourceAt (by omega) (by omega) (by omega)
  have sign : (integer 0).le difference = decide (sourceCount ≤ targetCount) := by
    rw [le_of_position zeroAt differenceAt, decide_eq_decide, ← not_lt, roundedUnits_neg_iff]
    omega
  unfold forwardDistance forwardUnits
  rw [differs, ok_bind, sign]
  by_cases order : sourceCount ≤ targetCount
  · simp only [order, decide_true, ↓reduceIte]
    exact ⟨difference, rfl, differenceAt⟩
  · obtain ⟨beyond, beyondIs, beyondAt⟩ :=
      add_of_position targetAt real_halfTurn_position (by omega) (by omega) (by omega)
    obtain ⟨before, beforeIs, beforeAt⟩ :=
      sub_of_position sourceAt real_halfTurn_position (by omega) (by omega) (by omega)
    have beyondWithin := natAbs_roundedUnits_le representable_fullTurnUnits
      (show (targetCount + halfTurnUnits).natAbs ≤ fullTurnUnits by unfold fullTurnUnits; omega)
    have beforeWithin := natAbs_roundedUnits_le representable_fullTurnUnits
      (show (sourceCount - halfTurnUnits).natAbs ≤ fullTurnUnits by unfold fullTurnUnits; omega)
    unfold fullTurnUnits at beyondWithin beforeWithin
    obtain ⟨distance, distanceIs, distanceAt⟩ :=
      sub_of_position beyondAt beforeAt (by omega) (by omega) (by omega)
    simp only [order, decide_false, Bool.false_eq_true, ↓reduceIte, beyondIs, beforeIs, ok_bind]
    exact ⟨distance, distanceIs, distanceAt⟩

end Number

namespace Value

/-- Forward distances of angles never fail, and they are exact but for two roundings. -/
theorem IsAngle.forwardDistance {source target : Value} (sourceAngle : source.IsAngle)
    (targetAngle : target.IsAngle) :
    ∃ distance, source.forwardDistance target = .ok distance ∧ (number distance).IsPlaced ∧
      |(number distance).exactValue - forwardGap source.exactValue target.exactValue| ≤
        twoRoundings * forwardGap source.exactValue target.exactValue := by
  obtain ⟨sourceNumber, rfl⟩ := sourceAngle.eq_number
  obtain ⟨targetNumber, rfl⟩ := targetAngle.eq_number
  obtain ⟨sourceCount, sourceAt, sourceWithin⟩ := sourceAngle
  obtain ⟨targetCount, targetAt, targetWithin⟩ := targetAngle
  obtain ⟨distance, distanceIs, distanceAt⟩ :=
    Number.forwardDistance_of_position sourceAt targetAt sourceWithin targetWithin
  have stands : (number distance).position = .units (forwardUnits sourceCount targetCount) :=
    distanceAt
  refine ⟨distance, distanceIs, ⟨_, stands⟩, ?_⟩
  rw [exactValue_of_position sourceAt, exactValue_of_position targetAt,
    exactValue_of_position stands]
  exact unitsValue_forwardUnits_error sourceWithin targetWithin

theorem exactValue_forwardDistance {source target : Value} {distance : Number}
    {sourceCount targetCount : Int} (sourceAt : source.position = .units sourceCount)
    (targetAt : target.position = .units targetCount)
    (sourceWithin : sourceCount.natAbs ≤ halfTurnUnits)
    (targetWithin : targetCount.natAbs ≤ halfTurnUnits)
    (distanceIs : source.forwardDistance target = .ok distance) :
    (number distance).exactValue = unitsValue (forwardUnits sourceCount targetCount) := by
  obtain ⟨sourceNumber, rfl⟩ := IsAngle.eq_number ⟨_, sourceAt, sourceWithin⟩
  obtain ⟨targetNumber, rfl⟩ := IsAngle.eq_number ⟨_, targetAt, targetWithin⟩
  obtain ⟨_, found, stands⟩ :=
    Number.forwardDistance_of_position sourceAt targetAt sourceWithin targetWithin
  cases distanceIs.symm.trans found
  exact exactValue_of_position stands

theorem IsAngle.forwardGap_mem {source target : Value} (sourceAngle : source.IsAngle)
    (targetAngle : target.IsAngle) :
    0 ≤ forwardGap source.exactValue target.exactValue ∧
      forwardGap source.exactValue target.exactValue ≤ 2 * halfCircle := by
  obtain ⟨-, sourceFrom, sourceTo⟩ := isAngle_iff.mp sourceAngle
  obtain ⟨-, targetFrom, targetTo⟩ := isAngle_iff.mp targetAngle
  unfold forwardGap
  split
  · constructor <;> linarith
  · constructor <;> linarith

theorem IsAngle.forwardDistance_sign {source target : Value} {distance : Number}
    (sourceAngle : source.IsAngle) (targetAngle : target.IsAngle)
    (distanceIs : source.forwardDistance target = .ok distance) :
    (number distance).IsPlaced ∧ 0 ≤ (number distance).exactValue ∧
      ((number distance).exactValue = 0 ↔ forwardGap source.exactValue target.exactValue = 0) := by
  obtain ⟨_, found, placed, error⟩ := sourceAngle.forwardDistance targetAngle
  cases distanceIs.symm.trans found
  obtain ⟨nonneg, -⟩ := sourceAngle.forwardGap_mem targetAngle
  rw [abs_le] at error
  unfold twoRoundings at error
  refine ⟨placed, by linarith, fun none => ?_, fun none => ?_⟩
  · linarith
  · rw [none] at error
    linarith

theorem IsAngle.forwardGap_le {source target otherSource otherTarget : Value}
    {distance otherDistance : Number} (sourceAngle : source.IsAngle)
    (targetAngle : target.IsAngle) (otherSourceAngle : otherSource.IsAngle)
    (otherTargetAngle : otherTarget.IsAngle)
    (distanceIs : source.forwardDistance target = .ok distance)
    (otherDistanceIs : otherSource.forwardDistance otherTarget = .ok otherDistance)
    (notLonger : otherDistance.lt distance = false) :
    forwardGap source.exactValue target.exactValue ≤
      forwardGap otherSource.exactValue otherTarget.exactValue + 1 / 2 ^ 48 := by
  obtain ⟨_, found, placed, error⟩ := sourceAngle.forwardDistance targetAngle
  cases distanceIs.symm.trans found
  obtain ⟨_, otherFound, otherPlaced, otherError⟩ :=
    otherSourceAngle.forwardDistance otherTargetAngle
  cases otherDistanceIs.symm.trans otherFound
  obtain ⟨-, atMost⟩ := sourceAngle.forwardGap_mem targetAngle
  obtain ⟨-, otherAtMost⟩ := otherSourceAngle.forwardGap_mem otherTargetAngle
  rw [Number.lt_eq_decide otherPlaced placed, decide_eq_false_iff_not, not_lt] at notLonger
  have small := halfCircle_lt
  rw [abs_le] at error otherError
  unfold twoRoundings at error otherError
  linarith

end Value

end CircularArc
