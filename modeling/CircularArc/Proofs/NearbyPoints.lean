import CircularArc.Proofs.ApproximateEquality
import CircularArc.Proofs.ExactDistance
import CircularArc.Proofs.Growing

/-!
# Points of approximately equal arcs

If two arcs are equal within a tolerance of at most one, no point of either is further than that from
the other, up to rounding. The ends are compared as directions, so each is only known to be near the
other up to whole turns; the lengths, compared as numbers, leave no room for a turn.
-/

set_option autoImplicit false

namespace CircularArc

/-- Every point of the first set is at most a distance away from some point of the second. -/
def IsWithin (first second : Set ℚ) (distance : ℚ) : Prop :=
  ∀ point ∈ first, ∃ nearby ∈ second, circularDistance point nearby ≤ distance

theorem IsWithin.of_subset {first second : Set ℚ} {distance : ℚ} (subset : first ⊆ second)
    (nonneg : 0 ≤ distance) : IsWithin first second distance := fun point held =>
  ⟨point, subset held, le_of_eq_of_le (circularDistance_self point) nonneg⟩

/-!
## Gaps up to whole turns
-/

section Gaps

variable {first second shift : ℚ}

theorem forwardGap_modEq (first second : ℚ) :
    forwardGap first second ≡ second - first [PMOD 2 * halfCircle] := by
  unfold forwardGap
  split
  · rfl
  · exact AddCommGroup.add_modEq_left.mpr AddCommGroup.self_modEq_zero

theorem forwardGap_eq_of_modEq (firstOn : first ∈ circle) (secondOn : second ∈ circle)
    (offset : second - first ≡ shift [PMOD 2 * halfCircle]) (nonneg : 0 ≤ shift)
    (short : shift < 2 * halfCircle) : forwardGap first second = shift := by
  have gapNonneg := forwardGap_nonneg firstOn secondOn
  have gapShort := forwardGap_lt firstOn secondOn
  obtain ⟨turns, apart⟩ := AddCommGroup.modEq_iff_eq_add_zsmul.mp
    ((forwardGap_modEq first second).trans offset)
  rw [zsmul_eq_mul] at apart
  have positive : 0 < 2 * halfCircle := mul_pos two_pos halfCircle_pos
  have most : (turns : ℚ) < 1 := (mul_lt_iff_lt_one_left positive).mp (by linarith)
  have least : (-turns : ℚ) < 1 := (mul_lt_iff_lt_one_left positive).mp (by linarith)
  have none : turns = 0 := by
    have least : -turns < 1 := by exact_mod_cast least
    have most : turns < 1 := by exact_mod_cast most
    omega
  rw [apart, none, Int.cast_zero, zero_mul, add_zero]

theorem circularDistance_le (firstOn : first ∈ circle) (secondOn : second ∈ circle)
    (offset : second - first ≡ shift [PMOD 2 * halfCircle]) :
    circularDistance first second ≤ |shift| := by
  rcases le_or_gt (2 * halfCircle) |shift| with long | short
  · exact (min_le_left _ _).trans ((le_of_lt (forwardGap_lt firstOn secondOn)).trans long)
  rcases le_total 0 shift with forward | backward
  · rw [abs_of_nonneg forward] at short ⊢
    exact min_le_of_left_le (le_of_eq (forwardGap_eq_of_modEq firstOn secondOn offset forward short))
  · rw [abs_of_nonpos backward] at short ⊢
    have reversed := AddCommGroup.neg_modEq_neg.mpr offset
    rw [neg_sub] at reversed
    exact min_le_of_right_le
      (le_of_eq (forwardGap_eq_of_modEq secondOn firstOn reversed (by linarith) short))

end Gaps

namespace Arc

variable {arc other : Arc} {loShift hiShift distance : ℚ}

/-- The ends of an arc, moved without passing each other, come to lie at those of another. -/
structure ShiftsTo (arc other : Arc) (loShift hiShift : ℚ) : Prop where
  lo_offset : other.lo.exactValue - arc.lo.exactValue ≡ loShift [PMOD 2 * halfCircle]
  length_eq : other.exactLength = arc.exactLength + hiShift - loShift

theorem ShiftsTo.isWithin (shifts : arc.ShiftsTo other loShift hiShift) (proper : arc.Proper)
    (otherProper : other.Proper) (loNear : |loShift| ≤ distance) (hiNear : |hiShift| ≤ distance) :
    IsWithin arc.points other.points distance := by
  intro point held
  by_cases shared : point ∈ other.points
  · exact ⟨point, shared, (circularDistance_self point).le.trans ((abs_nonneg loShift).trans loNear)⟩
  obtain ⟨onCircle, inside⟩ := proper.mem_points_iff.mp held
  rw [otherProper.mem_points_iff, and_iff_right onCircle, not_le] at shared
  obtain ⟨loLeast, loMost⟩ := abs_le.mp loNear
  obtain ⟨hiLeast, hiMost⟩ := abs_le.mp hiNear
  have nonneg := forwardGap_nonneg proper.lo_mem onCircle
  have otherShort := forwardGap_lt otherProper.lo_mem otherProper.hi_mem
  have lengths := shifts.length_eq
  have place : point - other.lo.exactValue ≡
      forwardGap arc.lo.exactValue point - loShift [PMOD 2 * halfCircle] := by
    have apart := (forwardGap_modEq arc.lo.exactValue point).symm.sub shifts.lo_offset
    rwa [sub_sub_sub_cancel_right] at apart
  rcases lt_or_ge (forwardGap arc.lo.exactValue point - loShift) 0 with before | beyond
  · refine ⟨other.lo.exactValue, otherProper.lo_mem_points, ?_⟩
    have toLo := AddCommGroup.neg_modEq_neg.mpr place
    rw [neg_sub] at toLo
    refine (circularDistance_le onCircle otherProper.lo_mem toLo).trans ?_
    rw [abs_neg, abs_of_neg before]
    linarith
  rcases lt_or_ge other.exactLength (forwardGap arc.lo.exactValue point - loShift) with past | within
  · refine ⟨other.hi.exactValue, otherProper.hi_mem_points, ?_⟩
    have toHi := (forwardGap_modEq other.lo.exactValue other.hi.exactValue).symm.sub place
    rw [sub_sub_sub_cancel_right] at toHi
    refine (circularDistance_le onCircle otherProper.hi_mem toHi).trans ?_
    rw [← Arc.exactLength, abs_of_neg (sub_neg.mpr past)]
    linarith
  · have gap := forwardGap_eq_of_modEq otherProper.lo_mem onCircle place beyond
      (lt_of_le_of_lt within otherShort)
    linarith

theorem Proper.circle_isWithin (proper : other.Proper) (rest : other.restLength ≤ 2 * distance) :
    IsWithin circle other.points distance := by
  intro point onCircle
  obtain ⟨⟨nearby, held, apart⟩, -⟩ := proper.isDistanceTo onCircle
  have most := proper.distanceFrom_le onCircle
  exact ⟨nearby, held, by linarith⟩

end Arc

/-!
## What the tests say of counts
-/

theorem dvd_sub_wrappedUnits (count : Int) :
    (2 * halfTurnUnits : Int) ∣ count - wrappedUnits count := by
  unfold wrappedUnits
  split
  · exact ⟨1, by ring⟩
  · split
    · exact ⟨-1, by ring⟩
    · exact ⟨0, by ring⟩

theorem dvd_spanUnits_sub (lo hi : Int) :
    (2 * halfTurnUnits : Int) ∣ spanUnits lo hi - (hi - lo) := by
  unfold spanUnits
  split
  · exact ⟨0, by ring⟩
  · exact ⟨1, by ring⟩

theorem exists_shift {source target tolerance : Int} (sourceWithin : source.natAbs ≤ halfTurnUnits)
    (targetWithin : target.natAbs ≤ halfTurnUnits) (near : angleOffset source target ≤ tolerance) :
    ∃ shift, |shift| ≤ tolerance + 2 * epsilonUnits ∧
      (2 * halfTurnUnits : Int) ∣ target - source - shift := by
  obtain ⟨most, least, -⟩ := turnRounding (target - source) (by omega)
  have turns := dvd_sub_wrappedUnits (roundedUnits (target - source))
  rw [angleOffset] at near
  refine ⟨target - source -
    (roundedUnits (target - source) - wrappedUnits (roundedUnits (target - source))), ?_, ?_⟩
  · rw [abs_le] at near ⊢
    constructor <;> omega
  · rwa [sub_sub_cancel]

section Counts

variable {lo hi otherLo otherHi tolerance : Int}

theorem ValidCounts.spanUnits_le (counts : ValidCounts lo hi)
    (nonempty : ¬ (lo = halfTurnUnits ∧ hi = -halfTurnUnits)) :
    spanUnits lo hi ≤ lengthUnits lo hi + Binary64.unitsPerOne + 3 * epsilonUnits := by
  have one := unitsPerOne_pos
  by_cases shortest : lo = halfTurnUnits ∧ hi = 2 * epsilonUnits - halfTurnUnits
  · have size := halfTurnUnits_eq_mul
    have positive := epsilonUnits_pos
    have measured := @neg_unitsPerOne_le_lengthUnits lo hi
    rw [spanUnits_of_lt (by omega)]
    omega
  · have near := (counts.lengthUnits_near nonempty).2 shortest
    omega

/-- The exact lengths of two arcs differ by little more than the measured ones may, and by up to one
more where an arc is measured as the empty one is. -/
theorem ValidCounts.spanUnits_close (counts : ValidCounts lo hi)
    (otherCounts : ValidCounts otherLo otherHi)
    (nonempty : ¬ (lo = halfTurnUnits ∧ hi = -halfTurnUnits))
    (otherNonempty : ¬ (otherLo = halfTurnUnits ∧ otherHi = -halfTurnUnits))
    (nonneg : 0 ≤ tolerance) (atMost : tolerance ≤ Binary64.unitsPerOne)
    (lengthsNear : lengthOffset lo hi otherLo otherHi ≤ roundedUnits (2 * tolerance)) :
    |spanUnits otherLo otherHi - spanUnits lo hi| ≤
      3 * Binary64.unitsPerOne + 10 * epsilonUnits := by
  have ⟨loWithin, hiWithin⟩ := counts.within
  have ⟨otherLoWithin, otherHiWithin⟩ := otherCounts.within
  have size := halfTurnUnits_eq_mul
  have one := unitsPerOne_eq_mul
  have positive := epsilonUnits_pos
  have bound := natAbs_lengthUnits_le loWithin hiWithin
  have otherBound := natAbs_lengthUnits_le otherLoWithin otherHiWithin
  have least := @neg_unitsPerOne_le_lengthUnits lo hi
  have otherLeast := @neg_unitsPerOne_le_lengthUnits otherLo otherHi
  have difference := four_epsilon_isGrain.near_rounded
    (lengthUnits lo hi - lengthUnits otherLo otherHi) (by omega)
  have twice := four_epsilon_isGrain.near_rounded (2 * tolerance) (by omega)
  have near := (counts.lengthUnits_near nonempty).1
  have otherNear := (otherCounts.lengthUnits_near otherNonempty).1
  have room := counts.spanUnits_le nonempty
  have otherRoom := otherCounts.spanUnits_le otherNonempty
  rw [lengthOffset, abs_le] at lengthsNear
  rw [abs_le]
  constructor <;> omega

theorem ValidCounts.exists_shifts (counts : ValidCounts lo hi)
    (otherCounts : ValidCounts otherLo otherHi)
    (nonempty : ¬ (lo = halfTurnUnits ∧ hi = -halfTurnUnits))
    (otherNonempty : ¬ (otherLo = halfTurnUnits ∧ otherHi = -halfTurnUnits))
    (atMost : tolerance ≤ Binary64.unitsPerOne) (loNear : angleOffset lo otherLo ≤ tolerance)
    (hiNear : angleOffset hi otherHi ≤ tolerance)
    (lengthsNear : lengthOffset lo hi otherLo otherHi ≤ roundedUnits (2 * tolerance)) :
    ∃ loShift hiShift, |loShift| ≤ tolerance + 2 * epsilonUnits ∧
      |hiShift| ≤ tolerance + 2 * epsilonUnits ∧
      (2 * halfTurnUnits : Int) ∣ otherLo - lo - loShift ∧
      spanUnits otherLo otherHi = spanUnits lo hi + hiShift - loShift := by
  have ⟨loWithin, hiWithin⟩ := counts.within
  have ⟨otherLoWithin, otherHiWithin⟩ := otherCounts.within
  obtain ⟨loShift, loSmall, loTurns⟩ := exists_shift loWithin otherLoWithin loNear
  obtain ⟨hiShift, hiSmall, hiTurns⟩ := exists_shift hiWithin otherHiWithin hiNear
  refine ⟨loShift, hiShift, loSmall, hiSmall, loTurns, ?_⟩
  have size := halfTurnUnits_eq_mul
  have one := unitsPerOne_eq_mul
  have positive := epsilonUnits_pos
  have close := counts.spanUnits_close otherCounts nonempty otherNonempty
    ((abs_nonneg _).trans loNear) atMost lengthsNear
  have apart : (2 * halfTurnUnits : Int) ∣
      spanUnits otherLo otherHi - spanUnits lo hi - (hiShift - loShift) := by
    have turns := dvd_spanUnits_sub lo hi
    have otherTurns := dvd_spanUnits_sub otherLo otherHi
    have sum := ((otherTurns.sub turns).add hiTurns).sub loTurns
    ring_nf at sum ⊢
    exact sum
  have same := Int.eq_zero_of_abs_lt_dvd apart (by
    rw [abs_le] at close loSmall hiSmall
    rw [abs_lt]
    constructor <;> omega)
  omega

theorem ValidCounts.rest_le (otherCounts : ValidCounts otherLo otherHi)
    (otherNonempty : ¬ (otherLo = halfTurnUnits ∧ otherHi = -halfTurnUnits)) (nonneg : 0 ≤ tolerance)
    (atMost : tolerance ≤ Binary64.unitsPerOne)
    (near : roundedUnits (2 * roundedUnits (halfTurnUnits - tolerance)) ≤
      lengthUnits otherLo otherHi) :
    2 * halfTurnUnits - spanUnits otherLo otherHi ≤ 2 * tolerance + 8 * epsilonUnits := by
  have size := halfTurnUnits_eq_mul
  have one := unitsPerOne_eq_mul
  have positive := epsilonUnits_pos
  have first := two_epsilon_isGrain.near_rounded (halfTurnUnits - tolerance) (by omega)
  have second := four_epsilon_isGrain.near_rounded
    (2 * roundedUnits (halfTurnUnits - tolerance)) (by omega)
  have measured := (otherCounts.lengthUnits_near otherNonempty).1
  omega

end Counts

theorem nearlyEqual_shortest_point :
    nearlyEqual halfTurnUnits (2 * epsilonUnits - halfTurnUnits) halfTurnUnits halfTurnUnits
      (.units Binary64.unitsPerOne) = true := by
  have size := halfTurnUnits_eq_mul
  have one := unitsPerOne_eq_mul
  have limit := exactLimit_eq_mul
  have positive := epsilonUnits_pos
  have hiOffset : angleOffset (2 * epsilonUnits - halfTurnUnits) halfTurnUnits = 0 := by
    have apart : (halfTurnUnits - (2 * epsilonUnits - halfTurnUnits) : Int) =
        2 * halfTurnUnits - 2 * epsilonUnits := by ring
    rw [angleOffset, apart, roundedUnits_before_fullTurn, wrappedUnits, if_pos (by omega), sub_self,
      abs_zero]
  have lengths : lengthOffset halfTurnUnits (2 * epsilonUnits - halfTurnUnits) halfTurnUnits
      halfTurnUnits = Binary64.unitsPerOne := by
    rw [lengthOffset, lengthUnits_shortest, lengthUnits_of_le (le_refl _), sub_self,
      roundedUnits_zero, sub_zero, roundedUnits_neg, abs_neg,
      two_epsilon_isGrain.rounded_of_dvd two_epsilon_dvd_one (by omega), abs_of_nonneg (by omega)]
  rw [nearlyEqual, if_neg (by omega), if_neg (by omega), if_neg (by omega), if_neg (by omega),
    angleOffset_self, hiOffset, lengths, twofold_units (by omega),
    two_epsilon_isGrain.rounded_of_dvd (two_epsilon_dvd_one.mul_left 2) (by omega)]
  simp only [Position.le_units]
  rw [decide_eq_true (by omega), decide_eq_true (by omega)]
  rfl

namespace Arc

variable {arc other : Arc} {lo hi otherLo otherHi count : Int} {tolerance : Number}

theorem EndsAt.proper (endsAt : arc.EndsAt lo hi) (valid : arc.Valid)
    (nonempty : ¬ (lo = halfTurnUnits ∧ hi = -halfTurnUnits))
    (notFull : ¬ (lo = -halfTurnUnits ∧ hi = halfTurnUnits)) : arc.Proper := by
  refine valid.proper (fun ends => nonempty ?_) (fun ends => notFull ?_)
  · rwa [endsAt.lo_exact, endsAt.hi_exact, neg_halfCircle, halfCircle, unitsValue_inj,
      unitsValue_inj] at ends
  · rwa [endsAt.lo_exact, endsAt.hi_exact, neg_halfCircle, halfCircle, unitsValue_inj,
      unitsValue_inj] at ends

theorem EndsAt.points_of_full (endsAt : arc.EndsAt lo hi)
    (full : lo = -halfTurnUnits ∧ hi = halfTurnUnits) : arc.points = circle :=
  Arc.points_of_full (by rw [endsAt.lo_exact, full.1, neg_halfCircle])
    (by rw [endsAt.hi_exact, full.2, halfCircle])

theorem EndsAt.shiftsTo {loShift hiShift : Int} (endsAt : arc.EndsAt lo hi)
    (otherAt : other.EndsAt otherLo otherHi)
    (turns : (2 * halfTurnUnits : Int) ∣ otherLo - lo - loShift)
    (lengths : spanUnits otherLo otherHi = spanUnits lo hi + hiShift - loShift) :
    arc.ShiftsTo other (unitsValue loShift) (unitsValue hiShift) where
  lo_offset := by
    rw [otherAt.lo_exact, endsAt.lo_exact, ← unitsValue_sub]
    exact (unitsValue_modEq turns).symm
  length_eq := by
    rw [otherAt.exactLength, endsAt.exactLength, lengths, unitsValue_sub, unitsValue_add]

theorem EndsAt.circle_isWithin (endsAt : arc.EndsAt lo hi) (proper : arc.Proper)
    (rest : 2 * halfTurnUnits - spanUnits lo hi ≤ 2 * count) :
    IsWithin circle arc.points (unitsValue count) := by
  refine proper.circle_isWithin ?_
  rw [restLength, endsAt.exactLength, halfCircle, ← unitsValue_twice, ← unitsValue_sub,
    ← unitsValue_twice, unitsValue_le_iff]
  exact rest

theorem EndsAt.isWithin_of_nearlyEqual (endsAt : arc.EndsAt lo hi) (valid : arc.Valid)
    (counts : ValidCounts lo hi) (otherAt : other.EndsAt otherLo otherHi)
    (otherValid : other.Valid) (otherCounts : ValidCounts otherLo otherHi)
    (nonempty : ¬ (lo = halfTurnUnits ∧ hi = -halfTurnUnits))
    (otherNonempty : ¬ (otherLo = halfTurnUnits ∧ otherHi = -halfTurnUnits)) (nonneg : 0 ≤ count)
    (atMost : count ≤ Binary64.unitsPerOne)
    (near : nearlyEqual lo hi otherLo otherHi (.units count) = true) :
    IsWithin arc.points other.points (unitsValue count + 1 / 2 ^ 48) := by
  have size := halfTurnUnits_eq_mul
  have one := unitsPerOne_eq_mul
  have positive := epsilonUnits_pos
  have limit := exactLimit_eq_mul
  have allowed : unitsValue count + 1 / 2 ^ 48 = unitsValue (count + 8 * (2 * epsilonUnits)) := by
    rw [unitsValue_add, unitsValue_mul, unitsValue_two_epsilon]
    norm_num
  have within {shift : Int} (small : |shift| ≤ count + 2 * epsilonUnits) :
      |unitsValue shift| ≤ unitsValue (count + 8 * (2 * epsilonUnits)) := by
    rw [abs_le] at small ⊢
    rw [← unitsValue_neg, unitsValue_le_iff, unitsValue_le_iff]
    omega
  rw [allowed]
  by_cases otherFull : otherLo = -halfTurnUnits ∧ otherHi = halfTurnUnits
  · refine .of_subset ?_ ?_
    · rw [otherAt.points_of_full otherFull]
      exact points_subset_circle
    · rw [← unitsValue_zero, unitsValue_le_iff]
      omega
  have otherProper := otherAt.proper otherValid otherNonempty otherFull
  unfold nearlyEqual at near
  rw [if_neg nonempty, if_neg otherNonempty] at near
  by_cases full : lo = -halfTurnUnits ∧ hi = halfTurnUnits
  · rw [if_pos full, fullLengthBound_units (by omega), Position.le_units, decide_eq_true_eq] at near
    have rest := otherCounts.rest_le otherNonempty nonneg atMost near
    rw [endsAt.points_of_full full]
    exact otherAt.circle_isWithin otherProper (by omega)
  · rw [if_neg full, if_neg otherFull, twofold_units (by omega)] at near
    simp only [Bool.and_eq_true, Position.le_units, decide_eq_true_eq] at near
    obtain ⟨⟨loNear, hiNear⟩, lengthsNear⟩ := near
    obtain ⟨loShift, hiShift, loSmall, hiSmall, turns, lengths⟩ :=
      counts.exists_shifts otherCounts nonempty otherNonempty atMost loNear hiNear lengthsNear
    exact (endsAt.shiftsTo otherAt turns lengths).isWithin (endsAt.proper valid nonempty full)
      otherProper (within loSmall) (within hiSmall)

/-- The points of arcs found equal within a tolerance of at most one are within that tolerance of
each other, up to rounding. -/
theorem Valid.approxEquals_isWithin (arcValid : arc.Valid) (otherValid : other.Valid)
    (arcNonempty : arc.isEmpty = false) (otherNonempty : other.isEmpty = false)
    (nonneg : (Number.integer 0).le tolerance = true)
    (atMost : tolerance.le (.integer 1) = true)
    (near : arc.approxEquals other (.number tolerance) = .ok true) :
    IsWithin arc.points other.points ((Value.number tolerance).exactValue + 1 / 2 ^ 48) ∧
      IsWithin other.points arc.points ((Value.number tolerance).exactValue + 1 / 2 ^ 48) := by
  obtain ⟨lo, hi, endsAt, counts⟩ := arcValid.exists_endsAt
  obtain ⟨otherLo, otherHi, otherAt, otherCounts⟩ := otherValid.exists_endsAt
  rw [Number.le, Number.integer_zero_position] at nonneg
  rw [Number.le, Number.position, one_mul] at atMost
  obtain ⟨count, toleranceAt, from0, to1⟩ := Position.exists_units_of_le nonneg atMost
  have exactIs := Value.exactValue_of_position
    (show (Value.number tolerance).position = .units count from toleranceAt)
  have limit := exactLimit_eq_mul
  have one := unitsPerOne_eq_mul
  have short := Number.isShort_of_position toleranceAt (by omega)
  rw [← Bool.not_eq_true, endsAt.isEmpty_iff] at arcNonempty
  rw [← Bool.not_eq_true, otherAt.isEmpty_iff] at otherNonempty
  rw [endsAt.approxEquals arcValid otherAt otherValid short, Except.ok.injEq, toleranceAt] at near
  rw [exactIs]
  refine ⟨endsAt.isWithin_of_nearlyEqual arcValid counts otherAt otherValid otherCounts arcNonempty
    otherNonempty from0 to1 near, ?_⟩
  rw [nearlyEqual_comm] at near
  exact otherAt.isWithin_of_nearlyEqual otherValid otherCounts endsAt arcValid counts otherNonempty
    arcNonempty from0 to1 near

/-- Within a tolerance of one, the shortest arc across half a turn equals the point it starts at. -/
theorem Valid.approxEquals_isWithin_of_shortestCrossing :
    shortestCrossing.Valid ∧ (Arc.mk (.number halfTurn) (.number halfTurn)).Valid ∧
      (Number.integer 0).le (.integer 1) = true ∧ (Number.integer 1).le (.integer 1) = true ∧
      IsWithin shortestCrossing.points (Arc.mk (.number halfTurn) (.number halfTurn)).points
        ((Value.number (.integer 1)).exactValue + 1 / 2 ^ 48) ∧
      IsWithin (Arc.mk (.number halfTurn) (.number halfTurn)).points shortestCrossing.points
        ((Value.number (.integer 1)).exactValue + 1 / 2 ^ 48) := by
  have positive := halfTurnUnits_pos
  have one := unitsPerOne_eq_mul
  have limit := exactLimit_eq_mul
  have crossingAt := shortestCrossing_endsAt
  have pointAt := halfTurn_point_endsAt
  have pointValid := halfTurn_point_valid
  have oneAt : (Number.integer 1).position = .units Binary64.unitsPerOne := by
    rw [Number.position, one_mul]
  have nonneg : (Number.integer 0).le (.integer 1) = true := by
    rw [Number.le_of_position Number.integer_zero_position oneAt]
    exact decide_eq_true (by omega)
  have atMost : (Number.integer 1).le (.integer 1) = true := by
    rw [Number.le_of_position oneAt oneAt]
    exact decide_eq_true (le_refl _)
  have near : shortestCrossing.approxEquals ⟨.number halfTurn, .number halfTurn⟩
      (.number (.integer 1)) = .ok true := by
    rw [crossingAt.approxEquals shortestCrossing_valid pointAt pointValid
      (Number.isShort_of_position oneAt (by omega)), oneAt, nearlyEqual_shortest_point]
  have nonempty : shortestCrossing.isEmpty = false := by
    have step := epsilonUnits_pos
    rw [← Bool.not_eq_true, crossingAt.isEmpty_iff]
    omega
  have pointNonempty : (Arc.mk (.number halfTurn) (.number halfTurn)).isEmpty = false := by
    rw [← Bool.not_eq_true, pointAt.isEmpty_iff]
    omega
  exact ⟨shortestCrossing_valid, pointValid, nonneg, atMost,
    shortestCrossing_valid.approxEquals_isWithin pointValid nonempty pointNonempty nonneg atMost near⟩

end Arc

end CircularArc
