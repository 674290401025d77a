import CircularArc.Proofs.NestedIntersection
import CircularArc.Proofs.ShortestArc

/-!
# The two ways between two points

Of the two ways between two points, as far as they are computed, neither both exceed half a turn nor
both fall short of it. So the union of two points is the shortest arc between them, unless the way from
the first to the second comes out as half a turn and the way back as less.
-/

set_option autoImplicit false

namespace CircularArc

/-!
## The terms of the way back
-/

theorem roundedUnits_halfTurn_sub {count : Int} (exact : roundedUnits count = count)
    (near : halfTurnUnits - count ≤ 2 * Binary64.unitsPerOne)
    (within : count ≤ halfTurnUnits) :
    roundedUnits (halfTurnUnits - count) = halfTurnUnits - count := by
  have size := halfTurnUnits_eq_mul
  have one := unitsPerOne_eq_mul
  have aligned := epsilon_isGrain.dvd_rounded count (by omega)
  rw [exact] at aligned
  have turnAligned : (epsilonUnits : Int) ∣ halfTurnUnits :=
    (Int.dvd_mul_left 2 epsilonUnits).trans two_dvd_halfTurn
  exact epsilon_isGrain.rounded_of_dvd (Int.dvd_sub turnAligned aligned) (by omega)

/-- The two terms of the way from the upper count on to the lower one, each of them rounded. -/
def backTerms (lower upper : Int) : Int :=
  roundedUnits (lower + halfTurnUnits) + roundedUnits (halfTurnUnits - upper)

section Terms

variable {lower upper : Int}

theorem forwardUnits_of_gt (order : lower < upper) :
    forwardUnits upper lower = roundedUnits (backTerms lower upper) := by
  have before : roundedUnits (upper - halfTurnUnits) = -roundedUnits (halfTurnUnits - upper) := by
    rw [← roundedUnits_neg, neg_sub]
  rw [forwardUnits, if_neg (not_le.mpr order), before, sub_neg_eq_add, backTerms]

variable (lowerExact : roundedUnits lower = lower) (upperExact : roundedUnits upper = upper)
  (above : -halfTurnUnits ≤ lower) (below : upper ≤ halfTurnUnits)
include lowerExact upperExact above below

/-- One of the two terms is at most `2` and therefore exact, or both together exceed `4`, rounded or
not. -/
theorem backTerms_cases :
    roundedUnits (halfTurnUnits - upper) = halfTurnUnits - upper ∨
      roundedUnits (lower + halfTurnUnits) = lower + halfTurnUnits ∨
      (4 * Binary64.unitsPerOne < lower - upper + 2 * halfTurnUnits ∧
        4 * Binary64.unitsPerOne ≤ backTerms lower upper) := by
  have mirrored := roundedUnits_halfTurn_sub (show roundedUnits (-lower) = -lower by
    rw [roundedUnits_neg, lowerExact])
  rw [sub_neg_eq_add, add_comm] at mirrored
  rcases le_or_gt (halfTurnUnits - upper : Int) (2 * Binary64.unitsPerOne) with near | far
  · exact .inl (roundedUnits_halfTurn_sub upperExact near below)
  rcases le_or_gt (lower + halfTurnUnits : Int) (2 * Binary64.unitsPerOne) with near | farToo
  · exact .inr (.inl (mirrored near (by omega)))
  have one := unitsPerOne_eq_mul
  have two := two_epsilon_isGrain.rounded_of_dvd (Dvd.dvd.mul_left two_epsilon_dvd_one 2) (by omega)
  have before := le_roundedUnits_of_le two (le_of_lt far)
  have beyond := le_roundedUnits_of_le two (le_of_lt farToo)
  unfold backTerms
  exact .inr (.inr ⟨by omega, by omega⟩)

theorem backTerms_le_halfTurn (far : halfTurnUnits ≤ upper - lower) :
    backTerms lower upper ≤ halfTurnUnits := by
  have size := halfTurnUnits_eq_mul
  have one := unitsPerOne_eq_mul
  have beyond := roundedUnits_le_of_le upperExact (show lower + halfTurnUnits ≤ upper by omega)
  have before := roundedUnits_mono (show halfTurnUnits - upper ≤ -lower by omega)
  rw [roundedUnits_neg, lowerExact] at before
  rcases backTerms_cases lowerExact upperExact above below with exact | exact | ⟨long, -⟩
  · unfold backTerms
    omega
  · unfold backTerms
    omega
  · omega

theorem halfTurn_le_backTerms (short : upper - lower ≤ halfTurnUnits) :
    halfTurnUnits ≤ backTerms lower upper := by
  have size := halfTurnUnits_eq_mul
  have one := unitsPerOne_eq_mul
  have beyond := le_roundedUnits_of_le upperExact (show upper ≤ lower + halfTurnUnits by omega)
  have before := roundedUnits_mono (show -lower ≤ halfTurnUnits - upper by omega)
  rw [roundedUnits_neg, lowerExact] at before
  rcases backTerms_cases lowerExact upperExact above below with exact | exact | ⟨-, long⟩
  · unfold backTerms
    omega
  · unfold backTerms
    omega
  · omega

theorem halfTurn_le_of_roundedUnits_backTerms
    (short : roundedUnits (backTerms lower upper) ≤ halfTurnUnits) :
    halfTurnUnits ≤ upper - lower + 2 * epsilonUnits := by
  have size := halfTurnUnits_eq_mul
  have one := unitsPerOne_eq_mul
  have positive := epsilonUnits_pos
  have four := two_epsilon_isGrain.rounded_of_dvd (Dvd.dvd.mul_left two_epsilon_dvd_one 4) (by omega)
  have beyondNonneg := roundedUnits_nonneg (show 0 ≤ lower + halfTurnUnits by omega)
  have beforeNonneg := roundedUnits_nonneg (show 0 ≤ halfTurnUnits - upper by omega)
  have parts : backTerms lower upper =
    roundedUnits (lower + halfTurnUnits) + roundedUnits (halfTurnUnits - upper) := rfl
  have sumSmall := lt_of_roundedUnits_lt four (lt_of_le_of_lt short (by omega))
  have sum := (two_epsilon_isGrain.near_rounded (backTerms lower upper) (by omega)).2
  have beyondSmall :=
    lt_of_roundedUnits_lt four (show roundedUnits (lower + halfTurnUnits) < _ by omega)
  have beforeSmall :=
    lt_of_roundedUnits_lt four (show roundedUnits (halfTurnUnits - upper) < _ by omega)
  have beyond := (two_epsilon_isGrain.near_rounded (lower + halfTurnUnits) (by omega)).2
  have before := (two_epsilon_isGrain.near_rounded (halfTurnUnits - upper) (by omega)).2
  rcases backTerms_cases lowerExact upperExact above below with exact | exact | ⟨-, long⟩
  · omega
  · omega
  · omega

end Terms

/-!
## Both ways
-/

section Ways

variable {first second : Int} (firstExact : roundedUnits first = first)
  (secondExact : roundedUnits second = second) (firstWithin : first.natAbs ≤ halfTurnUnits)
  (secondWithin : second.natAbs ≤ halfTurnUnits)
include firstExact secondExact firstWithin secondWithin

theorem forwardUnits_le_halfTurn_of_gt (long : halfTurnUnits < forwardUnits first second) :
    forwardUnits second first ≤ halfTurnUnits := by
  rcases le_or_gt first second with order | order
  · rw [forwardUnits, if_pos order] at long
    rcases lt_or_eq_of_le order with less | rfl
    · rw [forwardUnits_of_gt less]
      exact roundedUnits_le_of_le roundedUnits_halfTurn (backTerms_le_halfTurn firstExact secondExact
        (by omega) (by omega) (le_of_lt (lt_of_lt_roundedUnits roundedUnits_halfTurn long)))
    · rw [sub_self, roundedUnits_zero] at long
      omega
  · rw [forwardUnits_of_gt order] at long
    rw [forwardUnits, if_pos (le_of_lt order)]
    by_contra longToo
    have terms := backTerms_le_halfTurn secondExact firstExact (by omega) (by omega)
      (le_of_lt (lt_of_lt_roundedUnits roundedUnits_halfTurn (not_le.mp longToo)))
    exact absurd (lt_of_lt_roundedUnits roundedUnits_halfTurn long) (not_lt.mpr terms)

theorem halfTurn_le_forwardUnits_of_lt (distinct : first ≠ second)
    (short : forwardUnits first second < halfTurnUnits) :
    halfTurnUnits ≤ forwardUnits second first := by
  rcases lt_or_gt_of_ne distinct with order | order
  · rw [forwardUnits, if_pos (le_of_lt order)] at short
    rw [forwardUnits_of_gt order]
    exact le_roundedUnits_of_le roundedUnits_halfTurn (halfTurn_le_backTerms firstExact secondExact
      (by omega) (by omega) (le_of_lt (lt_of_roundedUnits_lt roundedUnits_halfTurn short)))
  · rw [forwardUnits_of_gt order] at short
    rw [forwardUnits, if_pos (le_of_lt order)]
    by_contra shortToo
    have terms := halfTurn_le_backTerms secondExact firstExact (by omega) (by omega)
      (le_of_lt (lt_of_roundedUnits_lt roundedUnits_halfTurn (not_le.mp shortToo)))
    exact absurd (lt_of_roundedUnits_lt roundedUnits_halfTurn short) (not_lt.mpr terms)

theorem spanUnits_near_of_forwardUnits (there : forwardUnits first second = halfTurnUnits)
    (back : forwardUnits second first < halfTurnUnits) :
    halfTurnUnits < spanUnits first second ∧
      spanUnits first second ≤ halfTurnUnits + 2 * epsilonUnits := by
  have size := halfTurnUnits_eq_mul
  have positive := epsilonUnits_pos
  rcases lt_trichotomy first second with order | rfl | order
  · rw [forwardUnits_of_gt order] at back
    rw [forwardUnits, if_pos (le_of_lt order)] at there
    rw [spanUnits_of_le (le_of_lt order)]
    refine ⟨?_, ?_⟩
    · have terms := lt_of_roundedUnits_lt roundedUnits_halfTurn back
      exact not_le.mp fun short => absurd terms (not_lt.mpr
        (halfTurn_le_backTerms firstExact secondExact (by omega) (by omega) short))
    · have near := (four_epsilon_isGrain.near_rounded (second - first) (by omega)).2
      omega
  · omega
  · rw [forwardUnits_of_gt order] at there
    rw [forwardUnits, if_pos (le_of_lt order)] at back
    rw [spanUnits_of_lt order]
    have near := halfTurn_le_of_roundedUnits_backTerms secondExact firstExact (by omega) (by omega)
      (le_of_eq there)
    have less := lt_of_roundedUnits_lt roundedUnits_halfTurn back
    omega

/-- Which of two ways comes out longer and whether the first exceeds half a turn are one question, but
where the first comes out as half a turn and the second as less. -/
theorem forwardUnits_choice_iff (distinct : first ≠ second) :
    (forwardUnits second first < forwardUnits first second ↔
        halfTurnUnits < forwardUnits first second) ↔
      ¬ (forwardUnits first second = halfTurnUnits ∧
        forwardUnits second first < halfTurnUnits) := by
  have long := forwardUnits_le_halfTurn_of_gt firstExact secondExact firstWithin secondWithin
  have short := halfTurn_le_forwardUnits_of_lt firstExact secondExact firstWithin secondWithin distinct
  omega

end Ways

namespace Value

/-- The way from the first point to the second comes out as half a turn, and the way back as less. -/
def ReturnsShorter (first second : Value) : Prop :=
  ∃ there back, first.canonical.forwardDistance second.canonical = .ok there ∧
    second.canonical.forwardDistance first.canonical = .ok back ∧
    there.same halfTurn = true ∧ back.lt halfTurn = true

/-- The counts at which two points stand, and those at which the two ways between them come out. -/
structure Ways (first second : Value) (firstCount secondCount : Int) (there back : Number) :
    Prop where
  first_at : first.canonical.position = .units firstCount
  second_at : second.canonical.position = .units secondCount
  first_exact : roundedUnits firstCount = firstCount
  second_exact : roundedUnits secondCount = secondCount
  first_within : firstCount.natAbs ≤ halfTurnUnits
  second_within : secondCount.natAbs ≤ halfTurnUnits
  there_is : first.canonical.forwardDistance second.canonical = .ok there
  back_is : second.canonical.forwardDistance first.canonical = .ok back
  there_at : there.position = .units (forwardUnits firstCount secondCount)
  back_at : back.position = .units (forwardUnits secondCount firstCount)

variable {first second : Value}

theorem IsAngle.exists_ways (firstAngle : first.IsAngle) (secondAngle : second.IsAngle) :
    ∃ firstCount secondCount there back, first.Ways second firstCount secondCount there back := by
  obtain ⟨firstPoint, -⟩ := firstAngle.canonical_spec
  obtain ⟨secondPoint, -⟩ := secondAngle.canonical_spec
  obtain ⟨firstNumber, firstIs⟩ := firstPoint.eq_number
  obtain ⟨secondNumber, secondIs⟩ := secondPoint.eq_number
  obtain ⟨firstCount, firstAt, firstWithin⟩ := firstPoint
  obtain ⟨secondCount, secondAt, secondWithin⟩ := secondPoint
  have firstNumberAt : firstNumber.position = .units firstCount := by
    rwa [firstIs] at firstAt
  have secondNumberAt : secondNumber.position = .units secondCount := by
    rwa [secondIs] at secondAt
  have limit := halfTurnUnits_le_exactLimit
  obtain ⟨there, thereIs, thereAt⟩ := Number.forwardDistance_of_position firstNumberAt
    secondNumberAt firstWithin secondWithin
  obtain ⟨back, backIs, backAt⟩ := Number.forwardDistance_of_position secondNumberAt
    firstNumberAt secondWithin firstWithin
  rw [← forwardDistance_number, ← firstIs, ← secondIs] at thereIs backIs
  exact ⟨firstCount, secondCount, there, back, firstAt, secondAt,
    Number.roundedUnits_of_position firstNumberAt (by omega),
    Number.roundedUnits_of_position secondNumberAt (by omega), firstWithin, secondWithin, thereIs,
    backIs, thereAt, backAt⟩

namespace Ways

variable {firstCount secondCount : Int} {there back : Number}
  (ways : first.Ways second firstCount secondCount there back)
include ways

theorem exactValue_eq_iff :
    first.canonical.exactValue = second.canonical.exactValue ↔ firstCount = secondCount := by
  rw [exactValue_of_position ways.first_at, exactValue_of_position ways.second_at, unitsValue_inj]

theorem returnsShorter_iff : first.ReturnsShorter second ↔
    forwardUnits firstCount secondCount = halfTurnUnits ∧
      forwardUnits secondCount firstCount < halfTurnUnits := by
  have whole := Number.same_of_position ways.there_at Number.real_halfTurn_position
  have less := Number.lt_of_position ways.back_at Number.real_halfTurn_position
  constructor
  · rintro ⟨_, _, thereIs, backIs, wholeThere, lessBack⟩
    cases ways.there_is.symm.trans thereIs
    cases ways.back_is.symm.trans backIs
    exact ⟨of_decide_eq_true (whole.symm.trans wholeThere), of_decide_eq_true (less.symm.trans lessBack)⟩
  · rintro ⟨wholeThere, lessBack⟩
    exact ⟨there, back, ways.there_is, ways.back_is, whole.trans (decide_eq_true wholeThere),
      less.trans (decide_eq_true lessBack)⟩

theorem choice_of_returnsShorter (returns : first.ReturnsShorter second) :
    first.canonical.exactValue ≠ second.canonical.exactValue ∧ back.lt there = true ∧
      there.le halfTurn = true := by
  have ⟨wholeThere, lessBack⟩ := ways.returnsShorter_iff.mp returns
  rw [Number.lt_of_position ways.back_at ways.there_at, decide_eq_true_eq,
    Number.le_of_position ways.there_at Number.real_halfTurn_position, decide_eq_true_eq, ne_eq,
    ways.exactValue_eq_iff]
  refine ⟨?_, by omega, by omega⟩
  rintro rfl
  omega

theorem choice_of_not_returnsShorter (agreeing : ¬ first.ReturnsShorter second)
    (distinct : first.canonical.exactValue ≠ second.canonical.exactValue) :
    back.lt there = !there.le halfTurn := by
  rw [ways.returnsShorter_iff, ← forwardUnits_choice_iff ways.first_exact ways.second_exact
    ways.first_within ways.second_within (mt ways.exactValue_eq_iff.mpr distinct)] at agreeing
  rw [Number.lt_of_position ways.back_at ways.there_at,
    Number.le_of_position ways.there_at Number.real_halfTurn_position, ← decide_not, decide_eq_decide,
    not_le]
  exact agreeing

theorem exactLength_of_returnsShorter (returns : first.ReturnsShorter second) :
    halfCircle < (Arc.mk first.canonical second.canonical).exactLength ∧
      (Arc.mk first.canonical second.canonical).exactLength ≤ halfCircle + 1 / 2 ^ 51 := by
  have ⟨wholeThere, lessBack⟩ := ways.returnsShorter_iff.mp returns
  have endsAt : (Arc.mk first.canonical second.canonical).EndsAt firstCount secondCount :=
    ⟨ways.first_at, ways.second_at⟩
  rw [endsAt.exactLength, halfCircle, ← unitsValue_two_epsilon, ← unitsValue_add, unitsValue_lt_iff,
    unitsValue_le_iff]
  exact spanUnits_near_of_forwardUnits ways.first_exact ways.second_exact ways.first_within
    ways.second_within wholeThere lessBack

end Ways

end Value

namespace Arc

variable {first second : Value}

theorem point_eq (isAngle : first.IsAngle) : point first = .ok ⟨first.canonical, first.canonical⟩ := by
  obtain ⟨content, -, accepted, canonical⟩ := isAngle.angle_eq "p"
  rw [point, accepted, ok_bind, canonical]
  rfl

section Points

variable (firstAngle : first.IsAngle) (secondAngle : second.IsAngle) {there back : Number}
include firstAngle secondAngle

theorem shortest_eq (thereIs : first.canonical.forwardDistance second.canonical = .ok there) :
    shortest first second = .ok (if there.le halfTurn then ⟨first.canonical, second.canonical⟩
      else ⟨second.canonical, first.canonical⟩) := by
  obtain ⟨firstNumber, -, firstAccepted, firstIs⟩ := firstAngle.angle_eq "p1"
  obtain ⟨secondNumber, -, secondAccepted, secondIs⟩ := secondAngle.angle_eq "p2"
  rw [← firstIs, ← secondIs] at thereIs ⊢
  rw [Value.forwardDistance_number] at thereIs
  simp only [shortest, firstAccepted, secondAccepted, ok_bind, thereIs, pure_eq_ok,
    ← apply_ite Except.ok]

theorem union_of_points_eq (thereIs : first.canonical.forwardDistance second.canonical = .ok there)
    (backIs : second.canonical.forwardDistance first.canonical = .ok back) :
    (Arc.mk first.canonical first.canonical).union ⟨second.canonical, second.canonical⟩ =
      .ok (if first.canonical.exactValue = second.canonical.exactValue then
          ⟨first.canonical, first.canonical⟩
        else if back.lt there then ⟨second.canonical, first.canonical⟩
        else ⟨first.canonical, second.canonical⟩) := by
  obtain ⟨firstPoint, -⟩ := firstAngle.canonical_spec
  obtain ⟨secondPoint, -⟩ := secondAngle.canonical_spec
  have firstAbove := firstAngle.canonical_mem.1
  have valid := valid_of_above firstPoint firstPoint firstAbove firstAbove
  have nonempty : (Arc.mk first.canonical first.canonical).isEmpty = false := by
    rw [← Bool.not_eq_true, valid.isEmpty_iff]
    exact fun vanishing => ne_of_gt firstAbove vanishing.2
  obtain ⟨held, holds, means⟩ := valid.holds_decides secondPoint
  rw [Spans, if_pos (le_refl _), ← le_antisymm_iff] at means
  rw [valid.union_single_eq_insert secondPoint secondAngle.canonical_mem.1, insert, holds]
  by_cases same : first.canonical.exactValue = second.canonical.exactValue
  · rw [if_pos same, means.mpr same]
    rfl
  · rw [if_neg same, (Bool.not_eq_true held).mp (mt means.mp same)]
    simp only [ok_bind, Bool.false_eq_true, ↓reduceIte, nonempty, isNearerLo, thereIs, backIs,
      pure_eq_ok]

/-- The union of two points is the shortest arc between them, unless the way from the first to the
second comes out as half a turn and the way back as less. Then the union takes the way back, and the
shortest arc the other, which is hardly longer. -/
theorem union_of_points_is_shortest :
    ∃ start finish united pair, point first = .ok start ∧ point second = .ok finish ∧
      start.union finish = .ok united ∧ shortest first second = .ok pair ∧
      (united.same pair = true ↔ ¬ first.ReturnsShorter second) ∧
      (first.ReturnsShorter second →
        united = ⟨second.canonical, first.canonical⟩ ∧
        pair = ⟨first.canonical, second.canonical⟩ ∧
        halfCircle < pair.exactLength ∧ pair.exactLength ≤ halfCircle + 1 / 2 ^ 51) := by
  obtain ⟨firstCount, secondCount, there, back, ways⟩ := firstAngle.exists_ways secondAngle
  have firstPoint := firstAngle.canonical_spec.1
  have secondPoint := secondAngle.canonical_spec.1
  refine ⟨_, _, _, _, point_eq firstAngle, point_eq secondAngle,
    union_of_points_eq firstAngle secondAngle ways.there_is ways.back_is,
    shortest_eq firstAngle secondAngle ways.there_is, ?_⟩
  by_cases returns : first.ReturnsShorter second
  · obtain ⟨distinct, backLess, thereFits⟩ := ways.choice_of_returnsShorter returns
    rw [if_neg distinct, if_pos backLess, if_pos thereFits, Arc.same, Bool.and_eq_true,
      secondPoint.agrees_iff firstPoint]
    exact ⟨iff_of_false (fun swapped => distinct swapped.1.symm) (not_not.mpr returns),
      fun _ => ⟨rfl, rfl, ways.exactLength_of_returnsShorter returns⟩⟩
  · refine ⟨iff_of_true ?_ returns, fun returnsToo => absurd returnsToo returns⟩
    by_cases same : first.canonical.exactValue = second.canonical.exactValue
    · have agreeing := (firstPoint.agrees_iff secondPoint).mpr same
      rw [if_pos same]
      split <;> simp only [Arc.same, Value.agrees_refl, agreeing, Bool.and_self]
    · rw [if_neg same, ways.choice_of_not_returnsShorter returns same]
      cases there.le halfTurn <;> exact same_refl _

end Points

theorem union_of_points_is_shortest_from_half_turn :
    (Value.number minusHalfTurn).IsAngle ∧ (Value.number (Binary64.zero false)).IsAngle ∧
      ∃ start finish united pair, point (.number minusHalfTurn) = .ok start ∧
        point (.number (Binary64.zero false)) = .ok finish ∧ start.union finish = .ok united ∧
        shortest (.number minusHalfTurn) (.number (Binary64.zero false)) = .ok pair ∧
        united.same pair = true := by
  have turnAngle := Value.minusHalfTurn_isAngle
  have zeroAngle := Value.zero_isAngle
  have zeroAt : (Value.number (Binary64.zero false)).position = .units 0 := rfl
  have turnAt : (Value.number minusHalfTurn).position = .units (-halfTurnUnits) :=
    minusHalfTurn_position
  have positive := halfTurnUnits_pos
  obtain ⟨firstCount, secondCount, there, back, ways⟩ := turnAngle.exists_ways zeroAngle
  have firstIs : firstCount = halfTurnUnits := by
    have pointAt := turnAngle.canonical_spec.2
    rw [Value.exactValue_of_position ways.first_at, Value.circlePoint_of_position turnAt (by omega),
      canonicalUnits_of_le (by omega), unitsValue_inj] at pointAt
    omega
  have secondIs : secondCount = 0 := by
    have pointAt := zeroAngle.canonical_spec.2
    rwa [Value.exactValue_of_position ways.second_at, Value.circlePoint_of_position zeroAt (by omega),
      canonicalUnits_of_within (by omega) (by omega), unitsValue_inj] at pointAt
  have agreeing : ¬ (Value.number minusHalfTurn).ReturnsShorter (.number (Binary64.zero false)) := by
    have back : forwardUnits 0 halfTurnUnits = halfTurnUnits := by
      rw [forwardUnits, if_pos (by omega), sub_zero, roundedUnits_halfTurn]
    rw [ways.returnsShorter_iff, firstIs, secondIs, back]
    omega
  obtain ⟨start, finish, united, pair, startIs, finishIs, unitedIs, pairIs, same, -⟩ :=
    union_of_points_is_shortest turnAngle zeroAngle
  exact ⟨turnAngle, zeroAngle, start, finish, united, pair, startIs, finishIs, unitedIs, pairIs,
    same.mpr agreeing⟩

/-- The number next to minus 2, further from zero. -/
def beyondMinusTwo : Binary64 :=
  .finite true (4503599627370497 * Nat.pow 2 1023) (by decide +kernel)

/-- About half a turn less 2: the way from `beyondMinusTwo` to it exceeds half a turn by `epsilon`. -/
def nearlyOpposite : Binary64 :=
  .finite false (5141276249315887 * Nat.pow 2 1022) (by decide +kernel)

/-- Between these two points the union and the shortest arc run on opposite sides of the circle. -/
theorem union_of_nearlyOpposite_points :
    (Value.number beyondMinusTwo).IsAngle ∧ (Value.number nearlyOpposite).IsAngle ∧
      (do
        let united ← (← point beyondMinusTwo).union (← point nearlyOpposite)
        return united.same (← shortest beyondMinusTwo nearlyOpposite)) =
        Except.ok (ε := Fault) false :=
  ⟨by decide +kernel, by decide +kernel, by decide +kernel⟩

end Arc

end CircularArc
