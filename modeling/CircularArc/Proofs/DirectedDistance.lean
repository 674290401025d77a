import CircularArc.Arc.Comparison
import CircularArc.Proofs.Centers
import CircularArc.Proofs.ExactDistance
import Mathlib.Algebra.Order.Group.MinMax

/-!
# Accuracy of the directed distance

The computed middle of the rest of the circle is nearly the exact one, and one forward distance is
rounded in the end, so the directed distance is off by at most `1 / 2 ^ 48`.
-/

set_option autoImplicit false

namespace CircularArc

/-!
## Points named by computed numbers
-/

namespace Value

theorem circlePoint_of_position {value : Value} {count : Int}
    (stands : value.position = .units count) (within : count.natAbs ≤ halfTurnUnits) :
    value.circlePoint = unitsValue (canonicalUnits count) := by
  have positive := halfTurnUnits_pos
  have atLowest : unitsValue count = -halfCircle ↔ count = -halfTurnUnits := by
    rw [neg_halfCircle, unitsValue_inj]
  rw [circlePoint, exactValue_of_position stands]
  by_cases lowest : count = -halfTurnUnits
  · rw [if_pos (atLowest.mpr lowest), canonicalUnits_of_le (by omega), halfCircle, unitsValue_inj]
    omega
  · rw [if_neg (mt atLowest.mp lowest), canonicalUnits_of_within (by omega) (by omega)]

theorem circlePoint_eq_of_mem {value : Value} (onCircle : value.exactValue ∈ circle) :
    value.circlePoint = value.exactValue := if_neg (ne_of_gt onCircle.1)

theorem forwardGap_circlePoint {source : ℚ} (onCircle : source ∈ circle) (value : Value) :
    forwardGap source value.circlePoint = forwardGap source value.exactValue := by
  obtain ⟨above, below⟩ := onCircle
  unfold circlePoint
  split
  · rename_i lowest
    rw [lowest, forwardGap_of_le below, forwardGap_of_lt above]
    ring
  · rfl

theorem forwardGap_from_circlePoint {value : Value} {point : ℚ} (onCircle : point ∈ circle)
    (apart : value.exactValue = -halfCircle → point < halfCircle) :
    forwardGap value.circlePoint point = forwardGap value.exactValue point := by
  obtain ⟨above, below⟩ := onCircle
  unfold circlePoint
  split
  · rename_i lowest
    rw [lowest, forwardGap_of_lt (apart lowest), forwardGap_of_le (le_of_lt above)]
    ring
  · rfl

theorem IsAngle.forwardDistance_near {source target : Value} (sourceAngle : source.IsAngle)
    (targetAngle : target.IsAngle) :
    ∃ distance, source.forwardDistance target = .ok distance ∧ (number distance).IsPlaced ∧
      |(number distance).exactValue - forwardGap source.exactValue target.exactValue| ≤
        1 / 2 ^ 49 := by
  obtain ⟨distance, distanceIs, placed, error⟩ := sourceAngle.forwardDistance targetAngle
  obtain ⟨-, atMost⟩ := sourceAngle.forwardGap_mem targetAngle
  have small := halfCircle_lt
  refine ⟨distance, distanceIs, placed, le_trans error ?_⟩
  unfold twoRoundings
  linarith

end Value

theorem Halves.gaps {source target total count : Int} {center : Value}
    (halves : Halves source target total count) (stands : center.position = .units count) :
    forwardGap (unitsValue source) center.circlePoint +
        forwardGap center.circlePoint (unitsValue target) = unitsValue total ∧
      forwardGap (unitsValue source) center.circlePoint ≤
        forwardGap center.circlePoint (unitsValue target) + 1 / 2 ^ 50 ∧
      forwardGap center.circlePoint (unitsValue target) ≤
        forwardGap (unitsValue source) center.circlePoint + 1 / 2 ^ 50 := by
  rw [Value.circlePoint_of_position stands halves.within, forwardGap_unitsValue,
    forwardGap_unitsValue, ← unitsValue_four_epsilon, ← unitsValue_add, ← unitsValue_add,
    ← unitsValue_add, unitsValue_inj, unitsValue_le_iff, unitsValue_le_iff]
  exact ⟨halves.parts, halves.after, halves.before⟩

theorem Number.larger_exactValue {first second : Number} (firstPlaced : (Value.number first).IsPlaced)
    (secondPlaced : (Value.number second).IsPlaced) :
    (Value.number (first.larger second)).IsPlaced ∧
      (Value.number (first.larger second)).exactValue =
        max (Value.number first).exactValue (Value.number second).exactValue := by
  unfold larger
  rw [lt_eq_decide firstPlaced secondPlaced]
  by_cases less : (Value.number first).exactValue < (Value.number second).exactValue
  · rw [if_pos (decide_eq_true less), max_eq_right (le_of_lt less)]
    exact ⟨secondPlaced, rfl⟩
  · rw [if_neg (by simpa using less), max_eq_left (not_lt.mp less)]
    exact ⟨firstPlaced, rfl⟩

namespace Arc

variable {arc other : Arc}

/-!
## The middle of the rest of the circle
-/

theorem Valid.exists_complementCenter (valid : other.Valid) (proper : other.Proper) :
    ∃ middle : Binary64, other.complementCenter = .ok (.real middle) ∧
      (Value.number middle).IsAngle ∧
      other.IsMiddle (1 / 2 ^ 50) (Value.number middle).circlePoint ∧
      ((Value.number middle).exactValue = -halfCircle → other.lo.exactValue < halfCircle) := by
  obtain ⟨lo, hi, endsAt, counts⟩ := valid.exists_endsAt
  have loOn := proper.lo_mem
  have hiOn := proper.hi_mem
  rw [endsAt.lo_exact, mem_circle_iff, neg_halfCircle, unitsValue_lt_iff] at loOn
  rw [endsAt.hi_exact, mem_circle_iff, neg_halfCircle, unitsValue_lt_iff] at hiOn
  obtain ⟨loWithin, hiWithin⟩ := counts.within
  obtain ⟨middle, middleIs, middleAt⟩ := endsAt.complementCenter loWithin hiWithin
  have stands : (Value.number middle).position = .units (complementCenterUnits lo hi) := middleAt
  obtain ⟨halves, lowest⟩ := counts.complement_halves (fun ends => by omega) (fun ends => by omega)
  have isAngle : (Value.number middle).IsAngle := ⟨_, stands, halves.within⟩
  have ⟨parts, after, before⟩ := halves.gaps stands
  have rest : other.restLength = unitsValue (2 * halfTurnUnits - spanUnits lo hi) := by
    rw [restLength, endsAt.exactLength, unitsValue_sub, unitsValue_twice, halfCircle]
  rw [← endsAt.lo_exact, ← endsAt.hi_exact] at parts after before
  refine ⟨middle, middleIs, isAngle, ⟨isAngle.circlePoint_mem, ?_, after, before⟩, fun atLowest => ?_⟩
  · rw [rest, parts]
  · rw [Value.exactValue_of_position stands, neg_halfCircle, unitsValue_inj] at atLowest
    rw [endsAt.lo_exact, halfCircle, unitsValue_lt_iff]
    exact lowest atLowest

theorem Valid.spans_cases (valid : arc.Valid) {middle : Value} (isAngle : middle.IsAngle) :
    (arc.Spans middle.exactValue ∧ middle.circlePoint ∈ arc.points) ∨
      (¬ arc.Spans middle.exactValue ∧
        (middle.circlePoint ∉ arc.points ∨ middle.circlePoint = arc.hi.exactValue)) := by
  have positive := halfCircle_pos
  have ends := valid.exactEnds
  have onCircle := isAngle.circlePoint_mem
  rw [mem_points_iff, and_iff_right onCircle]
  by_cases lowest : middle.exactValue = -halfCircle
  · have named : middle.circlePoint = halfCircle := if_pos lowest
    rw [named, lowest]
    unfold Spans
    grind
  · have named : middle.circlePoint = middle.exactValue := if_neg lowest
    rw [named]
    tauto

theorem Valid.proper_of_not_spans (valid : arc.Valid) (nonempty : arc.points ≠ ∅) {middle : Value}
    (isAngle : middle.IsAngle) (outside : ¬ arc.Spans middle.exactValue) : arc.Proper := by
  have positive := halfCircle_pos
  refine valid.proper (fun ends => nonempty (points_of_empty ends.1 ends.2)) fun ends => ?_
  obtain ⟨-, least, most⟩ := Value.isAngle_iff.mp isAngle
  refine outside ?_
  rw [Spans, ends.1, ends.2, if_pos (by linarith)]
  exact ⟨least, most⟩

/-!
## The two gaps
-/

theorem checked_of_angles {lower upper : Binary64} (lowerAngle : (Value.number lower).IsAngle)
    (upperAngle : (Value.number upper).IsAngle) :
    checked (.number lower) (.number upper) = .ok (canonical lower upper) := by
  obtain ⟨lowerCount, lowerAt, lowerWithin⟩ := lowerAngle
  obtain ⟨upperCount, upperAt, upperWithin⟩ := upperAngle
  exact checked_of_checkedEnd (checkedEnd_of_position lowerAt lowerWithin)
    (checkedEnd_of_position upperAt upperWithin)

theorem canonical_proper {lower upper : Number} (lowerAngle : (Value.number lower).IsAngle)
    (upperAngle : (Value.number upper).IsAngle)
    (notFull : ¬ ((Value.number lower).exactValue = -halfCircle ∧
      (Value.number upper).exactValue = halfCircle))
    (notEmpty : ¬ ((Value.number lower).exactValue = halfCircle ∧
      (Value.number upper).exactValue = -halfCircle)) :
    (canonical lower upper).Proper ∧
      (canonical lower upper).lo.exactValue = (Value.number lower).circlePoint ∧
      (canonical lower upper).hi.exactValue = (Value.number upper).circlePoint := by
  obtain ⟨loEnd, hiEnd⟩ := canonical_ends lowerAngle upperAngle
  have loIs : (canonical lower upper).lo.exactValue = (Value.number lower).circlePoint := by
    rw [loEnd, Value.circlePoint]
    grind
  have hiIs : (canonical lower upper).hi.exactValue = (Value.number upper).circlePoint := by
    rw [hiEnd, Value.circlePoint]
    grind
  refine ⟨⟨?_, ?_⟩, loIs, hiIs⟩
  · rw [loIs]
    exact lowerAngle.circlePoint_mem
  · rw [hiIs]
    exact upperAngle.circlePoint_mem

theorem Valid.endDistance_cases {gap : Arc} (gapValid : gap.Valid) {point source target : Value}
    (isAngle : point.IsAngle) (notTruth : point.kind ≠ .truth) (sourceAngle : source.IsAngle)
    (targetAngle : target.IsAngle) :
    ∃ distance, gap.endDistance point source target = .ok distance ∧
      (point.circlePoint ∈ gap.points → source.forwardDistance target = .ok distance) ∧
      (point.circlePoint ∉ gap.points → distance = Binary64.zero false) := by
  obtain ⟨held, heldIs, means⟩ := gapValid.containsPoint_decides isAngle notTruth
  unfold endDistance
  rw [heldIs, ok_bind]
  cases held with
  | true =>
    obtain ⟨distance, distanceIs, -⟩ := sourceAngle.forwardDistance targetAngle
    exact ⟨distance, distanceIs, fun _ => distanceIs, fun left => absurd (means.mp rfl) left⟩
  | false =>
    refine ⟨_, rfl, fun member => ?_, fun _ => rfl⟩
    exact absurd (means.mpr member) Bool.false_ne_true

theorem Valid.endDistance_near {gap : Arc} (gapValid : gap.Valid) {point source target : Value}
    (isAngle : point.IsAngle) (notTruth : point.kind ≠ .truth) (sourceAngle : source.IsAngle)
    (targetAngle : target.IsAngle) {reach : ℚ}
    (inside : point.circlePoint ∈ gap.points →
      reach = forwardGap source.exactValue target.exactValue)
    (outside : point.circlePoint ∉ gap.points → reach = 0) :
    ∃ distance, gap.endDistance point source target = .ok distance ∧
      (Value.number distance).IsPlaced ∧
      |(Value.number distance).exactValue - reach| ≤ 1 / 2 ^ 49 := by
  obtain ⟨distance, reachIs, whenHeld, whenLeft⟩ :=
    gapValid.endDistance_cases isAngle notTruth sourceAngle targetAngle
  refine ⟨distance, reachIs, ?_⟩
  by_cases member : point.circlePoint ∈ gap.points
  · obtain ⟨_, found, measured⟩ := sourceAngle.forwardDistance_near targetAngle
    cases (whenHeld member).symm.trans found
    rw [inside member]
    exact measured
  · rw [whenLeft member, outside member, Value.exactValue_zero, sub_self, abs_zero]
    exact ⟨Value.zero_isPlaced, by positivity⟩

section Gaps

variable {middle : Binary64} (isAngle : (Value.number middle).IsAngle) {point : Value}
  (onCircle : point.exactValue ∈ circle)
include isAngle onCircle

/-- The gap between the upper end of an arc and a computed middle, as the points in it are found. A gap
that closes up at half a turn is checked to be the empty arc, and no longer holds its one point. -/
theorem Proper.exists_gapAfter (proper : other.Proper) {upper : Binary64}
    (hiIs : other.hi = .number upper) (hiAngle : other.hi.IsAngle) :
    ∃ gap, checked other.hi (.number middle) = .ok gap ∧ gap.Valid ∧
      (point.circlePoint ∈ gap.points →
        forwardGap other.hi.exactValue point.exactValue ≤
          forwardGap other.hi.exactValue (Value.number middle).circlePoint) ∧
      (point.circlePoint ∉ gap.points →
        forwardGap other.hi.exactValue point.exactValue ≤
          forwardGap other.hi.exactValue (Value.number middle).circlePoint →
        forwardGap other.hi.exactValue point.exactValue = 0) := by
  have positive := halfCircle_pos
  have hiOn := proper.hi_mem
  rw [hiIs] at hiAngle hiOn ⊢
  have named := Value.circlePoint_eq_of_mem onCircle
  refine ⟨canonical upper middle, checked_of_angles hiAngle isAngle,
    canonical_valid hiAngle isAngle, ?_⟩
  by_cases touching : (Value.number upper).exactValue = halfCircle ∧
      (Value.number middle).exactValue = -halfCircle
  · obtain ⟨hiAt, middleAt⟩ := touching
    obtain ⟨gapLo, gapHi⟩ := canonical_ends hiAngle isAngle
    rw [hiAt, middleAt, if_neg fun lowest => absurd lowest.1 (by linarith)] at gapLo
    rw [hiAt, middleAt, if_neg fun lifted => lifted.2 rfl] at gapHi
    have atMiddle : (Value.number middle).circlePoint = halfCircle := if_pos middleAt
    have nonneg := forwardGap_nonneg hiOn onCircle
    rw [points_of_empty gapLo gapHi, atMiddle]
    rw [hiAt] at nonneg ⊢
    rw [forwardGap_self]
    exact ⟨False.elim, fun _ reached => le_antisymm reached nonneg⟩
  · obtain ⟨gapProper, loAt, hiAt⟩ := canonical_proper hiAngle isAngle
      (fun ends => ne_of_gt hiOn.1 ends.1) touching
    rw [named, gapProper.mem_points_iff, and_iff_right onCircle, exactLength, loAt, hiAt,
      Value.circlePoint_eq_of_mem hiOn]
    exact ⟨id, fun left reached => absurd reached left⟩

theorem Proper.exists_gapBefore (proper : other.Proper) {lower : Binary64}
    (loIs : other.lo = .number lower) (loAngle : other.lo.IsAngle)
    (lowest : (Value.number middle).exactValue = -halfCircle → other.lo.exactValue < halfCircle) :
    ∃ gap, checked (.number middle) other.lo = .ok gap ∧ gap.Valid ∧
      (point.circlePoint ∈ gap.points ↔
        forwardGap point.exactValue other.lo.exactValue ≤
          forwardGap (Value.number middle).circlePoint other.lo.exactValue) := by
  have loOn := proper.lo_mem
  rw [loIs] at loAngle loOn lowest ⊢
  obtain ⟨gapProper, loAt, hiAt⟩ := canonical_proper isAngle loAngle
    (fun ends => ne_of_lt (lowest ends.1) ends.2) (fun ends => ne_of_gt loOn.1 ends.2)
  refine ⟨canonical middle lower, checked_of_angles isAngle loAngle,
    canonical_valid isAngle loAngle, ?_⟩
  rw [Value.circlePoint_eq_of_mem onCircle, gapProper.mem_points_iff_to_hi,
    and_iff_right onCircle, exactLength, loAt, hiAt, Value.circlePoint_eq_of_mem loOn]

variable (pointAngle : point.IsAngle) (notTruth : point.kind ≠ .truth)
include pointAngle notTruth

theorem Proper.endDistance_after (proper : other.Proper) {upper : Binary64}
    (hiIs : other.hi = .number upper) (hiAngle : other.hi.IsAngle) :
    ∃ gap distance, checked other.hi (.number middle) = .ok gap ∧
      gap.endDistance point other.hi point = .ok distance ∧
      (Value.number distance).IsPlaced ∧
      |(Value.number distance).exactValue -
        (if forwardGap other.hi.exactValue point.exactValue ≤
            forwardGap other.hi.exactValue (Value.number middle).circlePoint then
          forwardGap other.hi.exactValue point.exactValue else 0)| ≤ 1 / 2 ^ 49 := by
  obtain ⟨gap, gapIs, gapValid, reached, missed⟩ :=
    proper.exists_gapAfter isAngle onCircle hiIs hiAngle
  refine ⟨gap, ?_⟩
  rw [exists_and_left]
  refine ⟨gapIs, gapValid.endDistance_near pointAngle notTruth hiAngle pointAngle
    (fun held => if_pos (reached held)) fun left => ?_⟩
  split
  · exact missed left ‹_›
  · rfl

theorem Proper.endDistance_before (proper : other.Proper) {lower : Binary64}
    (loIs : other.lo = .number lower) (loAngle : other.lo.IsAngle)
    (lowest : (Value.number middle).exactValue = -halfCircle → other.lo.exactValue < halfCircle) :
    ∃ gap distance, checked (.number middle) other.lo = .ok gap ∧
      gap.endDistance point point other.lo = .ok distance ∧
      (Value.number distance).IsPlaced ∧
      |(Value.number distance).exactValue -
        (if forwardGap point.exactValue other.lo.exactValue ≤
            forwardGap (Value.number middle).circlePoint other.lo.exactValue then
          forwardGap point.exactValue other.lo.exactValue else 0)| ≤ 1 / 2 ^ 49 := by
  obtain ⟨gap, gapIs, gapValid, member⟩ :=
    proper.exists_gapBefore isAngle onCircle loIs loAngle lowest
  refine ⟨gap, ?_⟩
  rw [exists_and_left]
  exact ⟨gapIs, gapValid.endDistance_near pointAngle notTruth pointAngle loAngle
    (fun held => if_pos (member.mp held)) (fun left => if_neg (mt member.mpr left))⟩

end Gaps

/-!
## The directed distance
-/

section Results

theorem directedDistance_of_contains (covered : other.contains arc = .ok true) :
    arc.directedDistance other = .ok (Binary64.zero false) := by
  rw [directedDistance, covered]
  rfl

variable (notCovered : other.contains arc = .ok false)
include notCovered

theorem directedDistance_of_isEmpty (vanishing : other.isEmpty = true) :
    arc.directedDistance other = .ok halfTurn := by
  rw [directedDistance, notCovered, ok_bind, if_neg Bool.false_ne_true, if_pos vanishing]
  rfl

variable {middle : Number} (nonempty : other.isEmpty = false)
  (middleIs : other.complementCenter = .ok middle)
include nonempty middleIs

theorem directedDistance_of_holds (held : arc.holds middle = .ok true) :
    arc.directedDistance other = other.hi.forwardDistance middle := by
  unfold directedDistance
  simp only [notCovered, ok_bind, Bool.false_eq_true, ↓reduceIte, nonempty, middleIs, held]

theorem directedDistance_of_not_holds (left : arc.holds middle = .ok false) {gapAfter gapBefore : Arc}
    {upper lower : Number} (afterIs : checked other.hi middle = .ok gapAfter)
    (upperIs : gapAfter.endDistance arc.hi other.hi arc.hi = .ok upper)
    (beforeIs : checked middle other.lo = .ok gapBefore)
    (lowerIs : gapBefore.endDistance arc.lo arc.lo other.lo = .ok lower) :
    arc.directedDistance other = .ok (upper.larger lower) := by
  unfold directedDistance
  simp only [notCovered, ok_bind, Bool.false_eq_true, ↓reduceIte, nonempty, middleIs, left, afterIs,
    upperIs, beforeIs, lowerIs]
  rfl

end Results

theorem IsReal.kinds_ne_truth (real : arc.IsReal) : arc.lo.kind ≠ .truth ∧ arc.hi.kind ≠ .truth := by
  obtain ⟨lower, upper, rfl⟩ := real
  exact ⟨nofun, nofun⟩

theorem Valid.directedDistance_of_outside (arcValid : arc.Valid) (otherValid : other.Valid)
    (arcReal : arc.IsReal) (otherReal : other.IsReal) (arcProper : arc.Proper)
    (proper : other.Proper) (notCovered : other.contains arc = .ok false)
    (nonempty : other.isEmpty = false) {middle : Binary64}
    (middleIs : other.complementCenter = .ok (.real middle))
    (isAngle : (Value.number middle).IsAngle)
    (lowest : (Value.number middle).exactValue = -halfCircle → other.lo.exactValue < halfCircle)
    (left : arc.holds middle = .ok false) :
    ∃ distance, arc.directedDistance other = .ok distance ∧ (Value.number distance).IsPlaced ∧
      |(Value.number distance).exactValue -
        arc.endReach other (Value.number middle).circlePoint| ≤ 1 / 2 ^ 49 := by
  obtain ⟨loNotTruth, hiNotTruth⟩ := arcReal.kinds_ne_truth
  obtain ⟨lower, upper, ends⟩ := otherReal
  obtain ⟨gapAfter, reachAfter, afterIs, reachAfterIs, afterPlaced, afterNear⟩ :=
    proper.endDistance_after isAngle arcProper.hi_mem arcValid.hi_isAngle hiNotTruth
      (congrArg Arc.hi ends) otherValid.hi_isAngle
  obtain ⟨gapBefore, reachBefore, beforeIs, reachBeforeIs, beforePlaced, beforeNear⟩ :=
    proper.endDistance_before isAngle arcProper.lo_mem arcValid.lo_isAngle loNotTruth
      (congrArg Arc.lo ends) otherValid.lo_isAngle lowest
  obtain ⟨placed, larger⟩ := Number.larger_exactValue afterPlaced beforePlaced
  refine ⟨reachAfter.larger reachBefore, ?_, placed, ?_⟩
  · exact directedDistance_of_not_holds notCovered nonempty middleIs left afterIs reachAfterIs
      beforeIs reachBeforeIs
  · rw [larger, endReach]
    exact le_trans (abs_max_sub_max_le_max _ _ _ _) (max_le afterNear beforeNear)

private theorem near_of_near {measured reached exact : ℚ} (error : |measured - reached| ≤ 1 / 2 ^ 49)
    (near : |reached - exact| ≤ 1 / 2 ^ 50) : |measured - exact| ≤ 1 / 2 ^ 48 :=
  calc |measured - exact|
      ≤ |measured - reached| + |reached - exact| := abs_sub_le _ _ _
    _ ≤ 1 / 2 ^ 49 + 1 / 2 ^ 50 := add_le_add error near
    _ ≤ 1 / 2 ^ 48 := by norm_num

/-- An arc that is not covered is measured by way of the computed middle. -/
theorem Valid.directedDistance_of_proper (arcValid : arc.Valid) (otherValid : other.Valid)
    (arcReal : arc.IsReal) (otherReal : other.IsReal) (nonempty : arc.points ≠ ∅)
    (proper : other.Proper) (notCovered : other.contains arc = .ok false) {exact : ℚ}
    (farthest : arc.Farthest other exact) :
    ∃ distance, arc.directedDistance other = .ok distance ∧
      (Value.number distance).IsPlaced ∧
      |(Value.number distance).exactValue - exact| ≤ 1 / 2 ^ 48 := by
  have otherNonempty : other.isEmpty = false := by
    rw [← Bool.not_eq_true, otherValid.isEmpty_iff_points]
    exact proper.points_ne_empty
  obtain ⟨middle, middleIs, isAngle, isMiddle, lowest⟩ := otherValid.exists_complementCenter proper
  have decides := arcValid.holds_decides isAngle
  rcases arcValid.spans_cases isAngle with ⟨inside, member⟩ | ⟨outside, beside⟩
  · have held := decides.eq_true_iff.mpr inside
    obtain ⟨distance, distanceIs, placed, error⟩ :=
      otherValid.hi_isAngle.forwardDistance_near isAngle
    have near := isMiddle.near_of_mem proper member farthest
    rw [← Value.forwardGap_circlePoint proper.hi_mem] at error
    rw [directedDistance_of_holds notCovered otherNonempty middleIs held]
    exact ⟨distance, distanceIs, placed, near_of_near error near⟩
  · have left := decides.eq_false_iff.mpr outside
    have arcProper := arcValid.proper_of_not_spans nonempty isAngle outside
    obtain ⟨distance, distanceIs, placed, error⟩ := arcValid.directedDistance_of_outside otherValid
      arcReal otherReal arcProper proper notCovered otherNonempty middleIs isAngle lowest left
    have near := isMiddle.near_of_outside proper arcProper beside farthest
    exact ⟨distance, distanceIs, placed, near_of_near error near⟩

/-- The directed distance never fails on valid arcs, and it is accurate. -/
theorem Valid.directedDistance_is_accurate (arcValid : arc.Valid) (otherValid : other.Valid)
    (arcReal : arc.IsReal) (otherReal : other.IsReal) :
    ∃ distance exact, arc.directedDistance other = .ok distance ∧
      (Value.number distance).IsPlaced ∧
      IsDirectedDistance arc.points other.points exact ∧
      |(Value.number distance).exactValue - exact| ≤ 1 / 2 ^ 48 := by
  obtain ⟨covered, coveredIs, means⟩ := otherValid.contains_decides arcValid
  cases covered with
  | true =>
    refine ⟨Binary64.zero false, 0, ?_, Value.zero_isPlaced,
      isDirectedDistance_zero points_subset_circle (means.mp rfl), ?_⟩
    · rw [directedDistance, coveredIs]
      rfl
    · rw [Value.exactValue_zero, sub_self, abs_zero]
      positivity
  | false =>
    have beyond : ¬ arc.points ⊆ other.points := fun within => nomatch means.mpr within
    have nonempty : arc.points ≠ ∅ := by
      intro vanishes
      exact beyond (vanishes ▸ Set.empty_subset _)
    by_cases empty : other.points = ∅
    · refine ⟨halfTurn, halfCircle, ?_, Value.halfTurn_isPlaced, .inr (.inl ⟨nonempty, empty, rfl⟩), ?_⟩
      · rw [directedDistance, coveredIs, ok_bind, if_neg Bool.false_ne_true,
          if_pos (otherValid.isEmpty_iff_points.mpr empty)]
        rfl
      · rw [Value.exactValue_halfTurn, sub_self, abs_zero]
        positivity
    · have proper := otherValid.proper_of_points empty fun whole => beyond (whole ▸ points_subset_circle)
      obtain ⟨exact, farthest⟩ := arcValid.exists_farthest nonempty proper
      obtain ⟨distance, distanceIs, placed, near⟩ := arcValid.directedDistance_of_proper otherValid
        arcReal otherReal nonempty proper coveredIs farthest
      exact ⟨distance, exact, distanceIs, placed, farthest.isDirectedDistance proper, near⟩

theorem Valid.directedDistance_is_accurate_of_full :
    full.Valid ∧ (Arc.mk (.number halfTurn) (.number halfTurn)).Valid ∧ full.IsReal ∧
      (Arc.mk (.number halfTurn) (.number halfTurn)).IsReal ∧
      ∃ distance exact,
        full.directedDistance (Arc.mk (.number halfTurn) (.number halfTurn)) = .ok distance ∧
        (Value.number distance).IsPlaced ∧
        IsDirectedDistance full.points (Arc.mk (.number halfTurn) (.number halfTurn)).points exact ∧
        |(Value.number distance).exactValue - exact| ≤ 1 / 2 ^ 48 := by
  have fullReal : full.IsReal := ⟨minusHalfTurn, halfTurn, rfl⟩
  have pointReal : (Arc.mk (.number halfTurn) (.number halfTurn)).IsReal :=
    ⟨halfTurn, halfTurn, rfl⟩
  exact ⟨full_valid, halfTurn_point_valid, fullReal, pointReal,
    full_valid.directedDistance_is_accurate halfTurn_point_valid fullReal pointReal⟩

end Arc

end CircularArc
