import CircularArc.Proofs.DirectedDistance
import CircularArc.Proofs.DistanceOrder

/-!
# Range of the directed distance

The directed distance is never more than half a turn. It comes out as nothing if the second arc
contains the first, and in one case more: what the second arc leaves of the circle is so short that
its computed middle falls onto the second arc's upper end, and the first arc holds that point.
-/

set_option autoImplicit false

namespace CircularArc

/-!
## The middle is at most half a turn away
-/

section Middle

variable {lo hi middle : Int}

theorem forwardUnits_antipode_le_of_nonpos (nonpos : middle ≤ 0) (least : -halfTurnUnits ≤ lo)
    (hiExact : roundedUnits hi = hi) (from_lo : lo ≤ middle) (to_hi : middle ≤ hi)
    (hiNear : hi ≤ middle + halfTurnUnits) :
    forwardUnits hi (antipodeUnits middle) ≤ halfTurnUnits ∧
      forwardUnits (antipodeUnits middle) lo ≤ halfTurnUnits := by
  have size := halfTurnUnits_eq_mul
  have positive := epsilonUnits_pos
  have ahead := le_roundedUnits_of_le hiExact hiNear
  have loSum := roundedUnits_mono (show lo + halfTurnUnits ≤ middle + halfTurnUnits by omega)
  have near := two_epsilon_isGrain.near_rounded (middle + halfTurnUnits) (by omega)
  rw [antipodeUnits, if_pos nonpos]
  generalize roundedUnits (middle + halfTurnUnits) = center at *
  have back := two_epsilon_isGrain.near_rounded (center - halfTurnUnits) (by omega)
  unfold forwardUnits
  constructor
  · rw [if_pos ahead]
    exact roundedUnits_le_halfTurn (by omega)
  · split <;> exact roundedUnits_le_halfTurn (by omega)

theorem antipodeUnits_neg (pos : 0 < middle) : antipodeUnits (-middle) = -antipodeUnits middle := by
  rw [antipodeUnits, if_pos (by omega), antipodeUnits, if_neg (by omega), ← roundedUnits_neg]
  congr 1
  ring

theorem forwardUnits_antipode_le (least : -halfTurnUnits ≤ lo) (most : hi ≤ halfTurnUnits)
    (loExact : roundedUnits lo = lo) (hiExact : roundedUnits hi = hi) (from_lo : lo ≤ middle)
    (to_hi : middle ≤ hi) (hiNear : hi ≤ middle + halfTurnUnits)
    (loNear : middle - halfTurnUnits ≤ lo) :
    forwardUnits hi (antipodeUnits middle) ≤ halfTurnUnits ∧
      forwardUnits (antipodeUnits middle) lo ≤ halfTurnUnits := by
  rcases le_or_gt middle 0 with nonpos | pos
  · exact forwardUnits_antipode_le_of_nonpos nonpos least hiExact from_lo to_hi hiNear
  · have turned : roundedUnits (-lo) = -lo := by rw [roundedUnits_neg, loExact]
    obtain ⟨toLo, fromHi⟩ := forwardUnits_antipode_le_of_nonpos (show -middle ≤ 0 by omega)
      (show -halfTurnUnits ≤ -hi by omega) turned (by omega) (by omega) (by omega)
    rw [antipodeUnits_neg pos, forwardUnits_neg] at toLo fromHi
    exact ⟨fromHi, toLo⟩

theorem ValidCounts.complementCenter_reach (counts : ValidCounts lo hi)
    (nonempty : ¬ (lo = halfTurnUnits ∧ hi = -halfTurnUnits))
    (notFull : ¬ (lo = -halfTurnUnits ∧ hi = halfTurnUnits)) :
    forwardUnits hi (complementCenterUnits lo hi) ≤ halfTurnUnits ∧
      forwardUnits (complementCenterUnits lo hi) lo ≤ halfTurnUnits := by
  have size := halfTurnUnits_eq_mul
  have positive := epsilonUnits_pos
  have ⟨loWithin, hiWithin⟩ := counts.within
  have near := middleUnits_near hiWithin loWithin
  unfold complementCenterUnits
  cases counts with
  | empty loAt hiAt => exact absurd ⟨loAt, hiAt⟩ nonempty
  | full loAt hiAt => exact absurd ⟨loAt, hiAt⟩ notFull
  | normal counts =>
    obtain ⟨above, order, below, loExact, hiExact⟩ := counts
    have loGap := neg_halfTurn_add_le_of_lt loExact above
    by_cases single : lo = hi
    · subst single
      rw [if_pos rfl]
      exact forwardUnits_antipode_le (le_of_lt above) below loExact hiExact (le_refl lo) (le_refl lo)
        (by omega) (by omega)
    · have swapped : middleUnits lo hi = middleUnits hi lo := by
        rw [middleUnits, add_comm, middleUnits]
      have inside := middleUnits_mem order loExact hiExact loWithin hiWithin
      rw [swapped] at inside
      rw [if_neg single, centerUnits, if_pos (by omega)]
      exact forwardUnits_antipode_le (by omega) below loExact hiExact inside.1 inside.2 (by omega)
        (by omega)
  | inverted counts =>
    obtain ⟨above, order, below, loExact, hiExact⟩ := counts
    have inside := middleUnits_mem (le_of_lt order) hiExact loExact hiWithin loWithin
    rw [if_neg (by omega), centerUnits, if_neg (by omega), forwardUnits, if_pos inside.1,
      forwardUnits, if_pos inside.2]
    exact ⟨roundedUnits_le_halfTurn (by omega), roundedUnits_le_halfTurn (by omega)⟩

end Middle

namespace Arc

variable {arc other : Arc}

theorem Valid.complementCenter_reach (valid : other.Valid) (proper : other.Proper)
    {middle : Binary64} (middleIs : other.complementCenter = .ok (.real middle)) :
    (∀ distance, other.hi.forwardDistance (.number middle) = .ok distance →
        (Value.number distance).exactValue ≤ halfCircle) ∧
      ∀ distance, Value.forwardDistance (.number middle) other.lo = .ok distance →
        (Value.number distance).exactValue ≤ halfCircle := by
  obtain ⟨lo, hi, endsAt, counts⟩ := valid.exists_endsAt
  obtain ⟨loAbove, -⟩ := proper.lo_mem
  obtain ⟨hiAbove, -⟩ := proper.hi_mem
  rw [endsAt.lo_exact, neg_halfCircle, unitsValue_lt_iff] at loAbove
  rw [endsAt.hi_exact, neg_halfCircle, unitsValue_lt_iff] at hiAbove
  obtain ⟨loWithin, hiWithin⟩ := counts.within
  obtain ⟨_, found, middleAt⟩ := endsAt.complementCenter loWithin hiWithin
  cases middleIs.symm.trans found
  have stands : (Value.number middle).position = .units (complementCenterUnits lo hi) := middleAt
  have within := natAbs_complementCenterUnits_le loWithin hiWithin
  obtain ⟨fromHi, toLo⟩ :=
    counts.complementCenter_reach (fun ends => by omega) (fun ends => by omega)
  constructor
  · intro distance distanceIs
    rw [Value.exactValue_forwardDistance endsAt.hi_at stands hiWithin within distanceIs, halfCircle,
      unitsValue_le_iff]
    exact fromHi
  · intro distance distanceIs
    rw [Value.exactValue_forwardDistance stands endsAt.lo_at within loWithin distanceIs, halfCircle,
      unitsValue_le_iff]
    exact toLo

structure IsDistance (distance : Number) : Prop where
  placed : (Value.number distance).IsPlaced
  nonneg : 0 ≤ (Value.number distance).exactValue
  le : (Value.number distance).exactValue ≤ halfCircle

theorem zero_isDistance : IsDistance (.real (Binary64.zero false)) :=
  ⟨Value.zero_isPlaced, Value.exactValue_zero.ge, Value.exactValue_zero.trans_le halfCircle_pos.le⟩

theorem IsDistance.larger {first second : Number} (isFirst : IsDistance first)
    (isSecond : IsDistance second) : IsDistance (first.larger second) := by
  obtain ⟨placed, larger⟩ := Number.larger_exactValue isFirst.placed isSecond.placed
  refine ⟨placed, ?_, ?_⟩
  · rw [larger]
    exact le_max_of_le_left isFirst.nonneg
  · rw [larger]
    exact max_le isFirst.le isSecond.le

/-!
## What an end reaches
-/

theorem Valid.endDistance_isDistance {gap : Arc} (gapValid : gap.Valid) {point source target : Value}
    (isAngle : point.IsAngle) (notTruth : point.kind ≠ .truth) (sourceAngle : source.IsAngle)
    (targetAngle : target.IsAngle)
    (most : point.circlePoint ∈ gap.points → ∀ distance,
      source.forwardDistance target = .ok distance →
        (Value.number distance).exactValue ≤ halfCircle) :
    ∃ distance, gap.endDistance point source target = .ok distance ∧ IsDistance distance ∧
      (point.circlePoint ∈ gap.points → 0 < forwardGap source.exactValue target.exactValue →
        0 < (Value.number distance).exactValue) := by
  obtain ⟨distance, reachIs, whenHeld, whenLeft⟩ :=
    gapValid.endDistance_cases isAngle notTruth sourceAngle targetAngle
  refine ⟨distance, reachIs, ?_⟩
  by_cases held : point.circlePoint ∈ gap.points
  · obtain ⟨placed, nonneg, none⟩ := sourceAngle.forwardDistance_sign targetAngle (whenHeld held)
    refine ⟨⟨placed, nonneg, most held distance (whenHeld held)⟩, fun _ apart => ?_⟩
    exact lt_of_le_of_ne nonneg fun vanishes => ne_of_gt apart (none.mp vanishes.symm)
  · rw [whenLeft held]
    exact ⟨zero_isDistance, fun member => absurd member held⟩

section Reach

variable {middle : Binary64} (valid : other.Valid) (proper : other.Proper) (real : other.IsReal)
  (isAngle : (Value.number middle).IsAngle)
  (middleIs : other.complementCenter = .ok (.real middle)) {point : Value}
  (pointAngle : point.IsAngle) (notTruth : point.kind ≠ .truth)
  (onCircle : point.exactValue ∈ circle)
include valid proper real isAngle middleIs pointAngle notTruth onCircle

theorem Proper.reach_after :
    ∃ gap distance, checked other.hi (.number middle) = .ok gap ∧
      gap.endDistance point other.hi point = .ok distance ∧ IsDistance distance ∧
      (0 < forwardGap other.hi.exactValue point.exactValue →
        forwardGap other.hi.exactValue point.exactValue ≤
          forwardGap other.hi.exactValue (Value.number middle).circlePoint →
        0 < (Value.number distance).exactValue) := by
  obtain ⟨lower, upper, rfl⟩ := real
  have hiAngle := valid.hi_isAngle
  obtain ⟨gap, gapIs, gapValid, reached, missed⟩ :=
    proper.exists_gapAfter isAngle onCircle rfl hiAngle
  obtain ⟨whole, wholeIs, -⟩ := hiAngle.forwardDistance isAngle
  have most := (valid.complementCenter_reach proper middleIs).1 whole wholeIs
  obtain ⟨distance, reachIs, isDistance, found⟩ :=
    gapValid.endDistance_isDistance pointAngle notTruth hiAngle pointAngle
      fun held distance distanceIs => by
        have shorter := reached held
        rw [Value.forwardGap_circlePoint proper.hi_mem] at shorter
        exact (hiAngle.forwardDistance_mono pointAngle isAngle distanceIs wholeIs shorter).trans most
  refine ⟨gap, distance, gapIs, reachIs, isDistance, fun apart before => found ?_ apart⟩
  by_contra left
  exact absurd (missed left before) (ne_of_gt apart)

theorem Proper.reach_before
    (lowest : (Value.number middle).exactValue = -halfCircle → other.lo.exactValue < halfCircle) :
    ∃ gap distance, checked (.number middle) other.lo = .ok gap ∧
      gap.endDistance point point other.lo = .ok distance ∧ IsDistance distance ∧
      (0 < forwardGap point.exactValue other.lo.exactValue →
        forwardGap point.exactValue other.lo.exactValue ≤
          forwardGap (Value.number middle).circlePoint other.lo.exactValue →
        0 < (Value.number distance).exactValue) := by
  obtain ⟨lower, upper, rfl⟩ := real
  have loAngle := valid.lo_isAngle
  obtain ⟨gap, gapIs, gapValid, member⟩ :=
    proper.exists_gapBefore isAngle onCircle rfl loAngle lowest
  obtain ⟨whole, wholeIs, -⟩ := isAngle.forwardDistance loAngle
  have most := (valid.complementCenter_reach proper middleIs).2 whole wholeIs
  obtain ⟨distance, reachIs, isDistance, found⟩ :=
    gapValid.endDistance_isDistance pointAngle notTruth pointAngle loAngle
      fun held distance distanceIs => by
        have shorter := member.mp held
        rw [Value.forwardGap_from_circlePoint proper.lo_mem lowest] at shorter
        exact (pointAngle.forwardDistance_antitone loAngle isAngle distanceIs wholeIs shorter).trans
          most
  exact ⟨gap, distance, gapIs, reachIs, isDistance,
    fun apart behind => found (member.mpr behind) apart⟩

end Reach

/-- Where the first arc does not hold the middle, and some point of it lies outside the second arc, one
of its ends reaches into a gap. -/
theorem IsMiddle.exists_reach {tolerance middle point : ℚ} (isMiddle : other.IsMiddle tolerance middle)
    (proper : other.Proper) (arcProper : arc.Proper)
    (beside : middle ∉ arc.points ∨ middle = arc.hi.exactValue) (held : point ∈ arc.points)
    (left : point ∉ other.points) :
    (0 < forwardGap other.hi.exactValue arc.hi.exactValue ∧
        forwardGap other.hi.exactValue arc.hi.exactValue ≤ forwardGap other.hi.exactValue middle) ∨
      (0 < forwardGap arc.lo.exactValue other.lo.exactValue ∧
        forwardGap arc.lo.exactValue other.lo.exactValue ≤ forwardGap middle other.lo.exactValue) := by
  have onCircle := points_subset_circle held
  obtain ⟨afterPos, beforePos, parts⟩ := proper.parts_of_notMem onCircle left
  have middleParts := isMiddle.parts
  rcases le_or_gt (forwardGap other.hi.exactValue point) (forwardGap other.hi.exactValue middle)
    with inFront | behind
  · refine .inl ?_
    rcases beside with outside | atHi
    · obtain ⟨reaches, stops⟩ :=
        arcProper.forwardGap_le_hi held isMiddle.onCircle outside proper.hi_mem inFront
      exact ⟨by linarith, le_of_lt stops⟩
    · rw [← atHi]
      exact ⟨by linarith, le_refl _⟩
  · refine .inr ?_
    rcases beside with outside | atHi
    · obtain ⟨reaches, stops⟩ :=
        arcProper.forwardGap_le_lo held isMiddle.onCircle outside proper.lo_mem (by linarith)
      exact ⟨by linarith, le_of_lt stops⟩
    · obtain ⟨reaches, stops⟩ := arcProper.forwardGap_le_of_lt_hi held proper.lo_mem (by
        rw [← atHi]
        linarith)
      rw [atHi]
      exact ⟨by linarith, stops⟩

/-!
## The range
-/

/-- The computed middle of what the second arc leaves of the circle falls onto its upper end, and the
first arc is found to hold it. -/
def MissesRest (arc other : Arc) : Prop :=
  other.isEmpty = false ∧ other.isFull = false ∧
    ∃ middle : Number, other.complementCenter = .ok middle ∧ arc.holds middle = .ok true ∧
      (Value.number middle).circlePoint = other.hi.exactValue

theorem MissesRest.restLength_le (misses : arc.MissesRest other) (valid : other.Valid) :
    other.restLength ≤ 1 / 2 ^ 50 := by
  obtain ⟨nonempty, notFull, middle, middleIs, -, atHi⟩ := misses
  have proper := valid.proper_of_isEmpty_of_isFull nonempty notFull
  obtain ⟨_, found, -, isMiddle, -⟩ := valid.exists_complementCenter proper
  cases middleIs.symm.trans found
  have parts := isMiddle.parts
  have before := isMiddle.before
  rw [atHi, forwardGap_self] at parts before
  linarith

theorem Valid.reaches_of_outside (arcValid : arc.Valid) (otherValid : other.Valid)
    (arcReal : arc.IsReal) (otherReal : other.IsReal) (arcProper : arc.Proper)
    (proper : other.Proper) (notCovered : other.contains arc = .ok false)
    (nonempty : other.isEmpty = false) {middle : Binary64}
    (middleIs : other.complementCenter = .ok (.real middle))
    (isAngle : (Value.number middle).IsAngle) (notHeld : arc.holds middle = .ok false)
    {tolerance point : ℚ}
    (isMiddle : other.IsMiddle tolerance (Value.number middle).circlePoint)
    (lowest : (Value.number middle).exactValue = -halfCircle → other.lo.exactValue < halfCircle)
    (beside : (Value.number middle).circlePoint ∉ arc.points ∨
      (Value.number middle).circlePoint = arc.hi.exactValue)
    (held : point ∈ arc.points) (left : point ∉ other.points) :
    ∃ distance, arc.directedDistance other = .ok distance ∧ IsDistance distance ∧
      0 < (Value.number distance).exactValue := by
  obtain ⟨loNotTruth, hiNotTruth⟩ := arcReal.kinds_ne_truth
  obtain ⟨gapAfter, upper, afterIs, upperIs, upperDistance, upperPos⟩ :=
    proper.reach_after otherValid otherReal isAngle middleIs arcValid.hi_isAngle hiNotTruth
      arcProper.hi_mem
  obtain ⟨gapBefore, lower, beforeIs, lowerIs, lowerDistance, lowerPos⟩ :=
    proper.reach_before otherValid otherReal isAngle middleIs arcValid.lo_isAngle loNotTruth
      arcProper.lo_mem lowest
  refine ⟨upper.larger lower, ?_, upperDistance.larger lowerDistance, ?_⟩
  · exact directedDistance_of_not_holds notCovered nonempty middleIs notHeld afterIs upperIs
      beforeIs lowerIs
  · rw [(Number.larger_exactValue upperDistance.placed lowerDistance.placed).2]
    rcases isMiddle.exists_reach proper arcProper beside held left with
      ⟨apart, inGap⟩ | ⟨apart, inGap⟩
    · exact lt_max_of_lt_left (upperPos apart inGap)
    · exact lt_max_of_lt_right (lowerPos apart inGap)

theorem Valid.directedDistance_isDistance (arcValid : arc.Valid) (otherValid : other.Valid)
    (arcReal : arc.IsReal) (otherReal : other.IsReal) (nonempty : other.isEmpty = false)
    (notFull : other.isFull = false) (notCovered : other.contains arc = .ok false) :
    ∃ distance, arc.directedDistance other = .ok distance ∧ IsDistance distance ∧
      ((Value.number distance).exactValue = 0 ↔ arc.MissesRest other) := by
  have proper := otherValid.proper_of_isEmpty_of_isFull nonempty notFull
  obtain ⟨point, pointHeld, left⟩ := Set.not_subset.mp
    ((otherValid.contains_decides arcValid).eq_false_iff.mp notCovered)
  obtain ⟨middle, middleIs, isAngle, isMiddle, lowest⟩ := otherValid.exists_complementCenter proper
  have decides := arcValid.holds_decides isAngle
  rcases arcValid.spans_cases isAngle with ⟨inside, member⟩ | ⟨outside, beside⟩
  · have held := decides.eq_true_iff.mpr inside
    obtain ⟨distance, distanceIs, -⟩ := otherValid.hi_isAngle.forwardDistance isAngle
    obtain ⟨placed, nonneg, none⟩ := otherValid.hi_isAngle.forwardDistance_sign isAngle distanceIs
    have most := (otherValid.complementCenter_reach proper middleIs).1 distance distanceIs
    rw [← Value.forwardGap_circlePoint proper.hi_mem,
      forwardGap_eq_zero_iff proper.hi_mem isAngle.circlePoint_mem] at none
    rw [directedDistance_of_holds notCovered nonempty middleIs held]
    refine ⟨distance, distanceIs, ⟨placed, nonneg, most⟩, none.trans ⟨fun atHi => ?_, ?_⟩⟩
    · exact ⟨nonempty, notFull, middle, middleIs, held, atHi.symm⟩
    · rintro ⟨-, -, _, found, -, atHi⟩
      cases middleIs.symm.trans found
      exact atHi.symm
  · have notHeld := decides.eq_false_iff.mpr outside
    have arcProper := arcValid.proper_of_not_spans
      (Set.nonempty_iff_ne_empty.mp ⟨point, pointHeld⟩) isAngle outside
    obtain ⟨distance, distanceIs, isDistance, apart⟩ := arcValid.reaches_of_outside otherValid
      arcReal otherReal arcProper proper notCovered nonempty middleIs isAngle notHeld isMiddle lowest
      beside pointHeld left
    refine ⟨distance, distanceIs, isDistance, iff_of_false (ne_of_gt apart) ?_⟩
    rintro ⟨-, -, _, found, held, -⟩
    cases middleIs.symm.trans found
    exact outside (decides.eq_true_iff.mp held)

theorem Valid.exists_directedDistance (arcValid : arc.Valid) (otherValid : other.Valid)
    (arcReal : arc.IsReal) (otherReal : other.IsReal) :
    ∃ distance, arc.directedDistance other = .ok distance ∧ IsDistance distance ∧
      ((Value.number distance).exactValue = 0 ↔
        other.contains arc = .ok true ∨ arc.MissesRest other) := by
  have positive := halfCircle_pos
  obtain ⟨covered, coveredIs, means⟩ := otherValid.contains_decides arcValid
  cases covered with
  | true =>
    exact ⟨_, directedDistance_of_contains coveredIs, zero_isDistance,
      iff_of_true Value.exactValue_zero (.inl coveredIs)⟩
  | false =>
    rw [coveredIs, Except.ok.injEq]
    cases vanishing : other.isEmpty with
    | true =>
      refine ⟨_, directedDistance_of_isEmpty coveredIs vanishing,
        ⟨Value.halfTurn_isPlaced, ?_, Value.exactValue_halfTurn.le⟩, ?_⟩
      · rw [Value.exactValue_halfTurn]
        exact positive.le
      · rw [Value.exactValue_halfTurn]
        refine iff_of_false (ne_of_gt positive) ?_
        rintro (impossible | ⟨nonempty, -⟩)
        · exact Bool.false_ne_true impossible
        · exact Bool.false_ne_true (nonempty.symm.trans vanishing)
    | false =>
      have notFull : other.isFull = false := by
        rw [← Bool.not_eq_true, otherValid.isFull_iff]
        rintro ⟨loAt, hiAt⟩
        exact Bool.false_ne_true (means.mpr ((points_of_full loAt hiAt).symm ▸ points_subset_circle))
      obtain ⟨distance, distanceIs, isDistance, none⟩ := arcValid.directedDistance_isDistance
        otherValid arcReal otherReal vanishing notFull coveredIs
      exact ⟨distance, distanceIs, isDistance, none.trans (by simp)⟩

/-- The directed distance is at most half a turn. It is nothing if the second arc contains the first or
the first misses what the second leaves of the circle, and more than nothing otherwise. -/
theorem Valid.directedDistance_range (arcValid : arc.Valid) (otherValid : other.Valid)
    (arcReal : arc.IsReal) (otherReal : other.IsReal) :
    ∃ distance, arc.directedDistance other = .ok distance ∧ distance.le halfTurn = true ∧
      (distance.same (.integer 0) = true ↔
        other.contains arc = .ok true ∨ arc.MissesRest other) ∧
      ((Number.integer 0).lt distance = true ↔
        ¬ (other.contains arc = .ok true ∨ arc.MissesRest other)) ∧
      (arc.MissesRest other → other.restLength ≤ 1 / 2 ^ 50) := by
  obtain ⟨distance, distanceIs, ⟨placed, nonneg, most⟩, none⟩ :=
    arcValid.exists_directedDistance otherValid arcReal otherReal
  refine ⟨distance, distanceIs, ?_, ?_, ?_, fun misses => misses.restLength_le otherValid⟩
  · rw [Number.le_eq_decide placed Value.halfTurn_isPlaced, Value.exactValue_halfTurn,
      decide_eq_true_eq]
    exact most
  · rw [Number.same_eq_decide placed Value.integer_zero_isPlaced, Value.exactValue_integer_zero,
      decide_eq_true_eq]
    exact none
  · rw [Number.lt_eq_decide Value.integer_zero_isPlaced placed, Value.exactValue_integer_zero,
      decide_eq_true_eq, ← none]
    exact lt_iff_le_and_ne.trans ((and_iff_right nonneg).trans ne_comm)

/-- The whole circle is away from the point at half a turn, since more is left than any middle misses. -/
theorem Valid.directedDistance_range_of_full :
    full.Valid ∧ (Arc.mk (.number halfTurn) (.number halfTurn)).Valid ∧ full.IsReal ∧
      (Arc.mk (.number halfTurn) (.number halfTurn)).IsReal ∧
      ∃ distance, full.directedDistance ⟨.number halfTurn, .number halfTurn⟩ = .ok distance ∧
        (Number.integer 0).lt distance = true ∧ distance.le halfTurn = true := by
  have fullReal : full.IsReal := ⟨minusHalfTurn, halfTurn, rfl⟩
  have pointReal : (Arc.mk (.number halfTurn) (.number halfTurn)).IsReal :=
    ⟨halfTurn, halfTurn, rfl⟩
  have size := halfTurnUnits_eq_mul
  have positive := epsilonUnits_pos
  obtain ⟨distance, distanceIs, most, -, apart, short⟩ :=
    full_valid.directedDistance_range halfTurn_point_valid fullReal pointReal
  have free : ¬ ((Arc.mk (.number halfTurn) (.number halfTurn)).contains full = .ok true ∨
      full.MissesRest ⟨.number halfTurn, .number halfTurn⟩) := by
    rintro (contained | misses)
    · rw [halfTurn_point_valid.contains_iff_covers full_valid halfTurn_point_endsAt full_endsAt,
          CoversCounts,
        if_neg (by omega), if_neg (by omega)] at contained
      omega
    · have rest := short misses
      rw [restLength, halfTurn_point_endsAt.exactLength, spanUnits_of_le (le_refl _), sub_self, unitsValue_zero,
        sub_zero, halfCircle, ← unitsValue_twice, ← unitsValue_four_epsilon,
        unitsValue_le_iff] at rest
      omega
  exact ⟨full_valid, halfTurn_point_valid, fullReal, pointReal, distance, distanceIs,
    apart.mpr free, most⟩

/-- The arc from the next number after one all the way round to one. -/
def aroundToOne : Arc :=
  ⟨.number (.real (.finite false (4503599627370497 * Nat.pow 2 1022) (by decide +kernel))),
    .number (.real (.finite false (Nat.pow 2 1074) (by decide +kernel)))⟩

/-- The gap from one to the next number is left out, but its middle is rounded to one. -/
theorem full_misses_rest_of_aroundToOne :
    full.Valid ∧ aroundToOne.Valid ∧ full.IsReal ∧ aroundToOne.IsReal ∧
      aroundToOne.contains full = .ok false ∧
      full.directedDistance aroundToOne = .ok (Binary64.zero false) :=
  ⟨full_valid, by decide +kernel, ⟨_, _, rfl⟩, ⟨_, _, rfl⟩, by decide +kernel, by decide +kernel⟩

end Arc

end CircularArc
