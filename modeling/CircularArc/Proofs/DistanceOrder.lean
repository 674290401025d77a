import CircularArc.Proofs.CountedArcs
import CircularArc.Proofs.ForwardDistance

/-!
# Order of forward distances

A forward distance is computed in one of two ways, each of which rounds, and the target decides
which. Nevertheless a point further on is never found to be nearer. The circle turned over exchanges
source and target, so the same holds of a source further back.
-/

set_option autoImplicit false

namespace CircularArc

section Counts

variable {source target further : Int}

theorem forwardUnits_mono (targetWithin : target.natAbs ≤ halfTurnUnits)
    (furtherWithin : further.natAbs ≤ halfTurnUnits)
    (shorter : spanUnits source target ≤ spanUnits source further) :
    forwardUnits source target ≤ forwardUnits source further := by
  have limit := halfTurnUnits_le_exactLimit
  have opposite : roundedUnits (halfTurnUnits - source) = -roundedUnits (source - halfTurnUnits) := by
    rw [← roundedUnits_neg, neg_sub]
  unfold forwardUnits
  rcases le_or_gt source target with ahead | passed
  · rw [spanUnits_of_le ahead] at shorter
    rw [if_pos ahead]
    rcases le_or_gt source further with furtherAhead | furtherPassed
    · rw [spanUnits_of_le furtherAhead] at shorter
      rw [if_pos furtherAhead]
      exact roundedUnits_mono shorter
    · have before := roundedUnits_mono (show target - source ≤ halfTurnUnits - source by omega)
      have beyond := roundedUnits_nonneg (show 0 ≤ further + halfTurnUnits by omega)
      have order := roundedUnits_mono (show roundedUnits (target - source) ≤
        roundedUnits (further + halfTurnUnits) - roundedUnits (source - halfTurnUnits) by omega)
      rw [roundedUnits_roundedUnits (by omega)] at order
      rw [if_neg (not_le.mpr furtherPassed)]
      exact order
  · rw [spanUnits_of_lt passed] at shorter
    rw [if_neg (not_le.mpr passed)]
    rcases le_or_gt source further with furtherAhead | furtherPassed
    · rw [spanUnits_of_le furtherAhead] at shorter
      obtain ⟨rfl, rfl⟩ : target = -halfTurnUnits ∧ further = halfTurnUnits := by omega
      rw [if_pos furtherAhead, neg_add_cancel, roundedUnits_zero, zero_sub, ← opposite,
        roundedUnits_roundedUnits (by omega)]
    · rw [spanUnits_of_lt furtherPassed] at shorter
      have order := roundedUnits_mono (show target + halfTurnUnits ≤ further + halfTurnUnits by omega)
      rw [if_neg (not_le.mpr furtherPassed)]
      exact roundedUnits_mono (by omega)

theorem forwardUnits_neg (source target : Int) :
    forwardUnits (-target) (-source) = forwardUnits source target := by
  unfold forwardUnits
  simp only [neg_le_neg_iff]
  split
  · congr 1
    ring
  · rw [show -source + halfTurnUnits = -(source - halfTurnUnits) by ring,
      show -target - halfTurnUnits = -(target + halfTurnUnits) by ring, roundedUnits_neg,
      roundedUnits_neg]
    congr 1
    ring

theorem spanUnits_neg (source target : Int) :
    spanUnits (-target) (-source) = spanUnits source target := by
  unfold spanUnits
  simp only [neg_le_neg_iff]
  split <;> ring

theorem forwardUnits_antitone (sourceWithin : source.natAbs ≤ halfTurnUnits)
    (furtherWithin : further.natAbs ≤ halfTurnUnits)
    (shorter : spanUnits source target ≤ spanUnits further target) :
    forwardUnits source target ≤ forwardUnits further target := by
  rw [← forwardUnits_neg source, ← forwardUnits_neg further]
  rw [← spanUnits_neg source, ← spanUnits_neg further] at shorter
  exact forwardUnits_mono (by omega) (by omega) shorter

end Counts

namespace Value

variable {source target further : Value} {distance otherDistance : Number}

theorem IsAngle.forwardDistance_mono (sourceAngle : source.IsAngle) (targetAngle : target.IsAngle)
    (furtherAngle : further.IsAngle) (distanceIs : source.forwardDistance target = .ok distance)
    (otherIs : source.forwardDistance further = .ok otherDistance)
    (shorter : forwardGap source.exactValue target.exactValue ≤
      forwardGap source.exactValue further.exactValue) :
    (number distance).exactValue ≤ (number otherDistance).exactValue := by
  obtain ⟨sourceCount, sourceAt, sourceWithin⟩ := sourceAngle
  obtain ⟨targetCount, targetAt, targetWithin⟩ := targetAngle
  obtain ⟨furtherCount, furtherAt, furtherWithin⟩ := furtherAngle
  rw [exactValue_of_position sourceAt, exactValue_of_position targetAt,
    exactValue_of_position furtherAt, forwardGap_unitsValue, forwardGap_unitsValue,
    unitsValue_le_iff] at shorter
  rw [exactValue_forwardDistance sourceAt targetAt sourceWithin targetWithin distanceIs,
    exactValue_forwardDistance sourceAt furtherAt sourceWithin furtherWithin otherIs,
    unitsValue_le_iff]
  exact forwardUnits_mono targetWithin furtherWithin shorter

theorem IsAngle.forwardDistance_antitone (sourceAngle : source.IsAngle)
    (targetAngle : target.IsAngle) (furtherAngle : further.IsAngle)
    (distanceIs : source.forwardDistance target = .ok distance)
    (otherIs : further.forwardDistance target = .ok otherDistance)
    (shorter : forwardGap source.exactValue target.exactValue ≤
      forwardGap further.exactValue target.exactValue) :
    (number distance).exactValue ≤ (number otherDistance).exactValue := by
  obtain ⟨sourceCount, sourceAt, sourceWithin⟩ := sourceAngle
  obtain ⟨targetCount, targetAt, targetWithin⟩ := targetAngle
  obtain ⟨furtherCount, furtherAt, furtherWithin⟩ := furtherAngle
  rw [exactValue_of_position sourceAt, exactValue_of_position targetAt,
    exactValue_of_position furtherAt, forwardGap_unitsValue, forwardGap_unitsValue,
    unitsValue_le_iff] at shorter
  rw [exactValue_forwardDistance sourceAt targetAt sourceWithin targetWithin distanceIs,
    exactValue_forwardDistance furtherAt targetAt furtherWithin targetWithin otherIs,
    unitsValue_le_iff]
  exact forwardUnits_antitone sourceWithin furtherWithin shorter

end Value

end CircularArc
