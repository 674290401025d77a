import CircularArc.Arc.Comparison
import CircularArc.Proofs.MovedEnds
import CircularArc.Proofs.PositionArithmetic

/-!
# Approximate equality as a relation of places

The tests of approximate equality look at the counts of the ends and at the place of the tolerance
only. Written with these, the relation is seen to be symmetric, to hold of an arc and itself, and to
survive a larger tolerance. The tolerance may be negative, infinite or undefined.
-/

set_option autoImplicit false

namespace CircularArc

/-- The least length that counts as that of the full circle, within a tolerance at a place. -/
def fullLengthBound (tolerance : Position) : Position :=
  ((Position.units halfTurnUnits).plus tolerance.opposite).twofold

/-- How far two angles are found to be apart. -/
def angleOffset (source target : Int) : Int := |wrappedUnits (roundedUnits (target - source))|

/-- By how much the lengths of two arcs are found to differ. -/
def lengthOffset (lo hi otherLo otherHi : Int) : Int :=
  |roundedUnits (lengthUnits lo hi - lengthUnits otherLo otherHi)|

/-- Whether the arcs between two pairs of counts are equal within a tolerance at a place. -/
def nearlyEqual (lo hi otherLo otherHi : Int) (tolerance : Position) : Bool :=
  if lo = halfTurnUnits ∧ hi = -halfTurnUnits then
    (Position.units (lengthUnits otherLo otherHi)).le tolerance.twofold
  else if otherLo = halfTurnUnits ∧ otherHi = -halfTurnUnits then
    (Position.units (lengthUnits lo hi)).le tolerance.twofold
  else if lo = -halfTurnUnits ∧ hi = halfTurnUnits then
    (fullLengthBound tolerance).le (.units (lengthUnits otherLo otherHi))
  else if otherLo = -halfTurnUnits ∧ otherHi = halfTurnUnits then
    (fullLengthBound tolerance).le (.units (lengthUnits lo hi))
  else
    (Position.units (angleOffset lo otherLo)).le tolerance &&
      (Position.units (angleOffset hi otherHi)).le tolerance &&
      (Position.units (lengthOffset lo hi otherLo otherHi)).le tolerance.twofold

namespace Arc

variable {arc other : Arc} {lo hi otherLo otherHi : Int} {tolerance : Number}

/-!
## What the tests look at
-/

theorem EndsAt.isNearlyEmpty (endsAt : arc.EndsAt lo hi) (valid : arc.Valid)
    (short : tolerance.IsShort) :
    arc.isNearlyEmpty (.number tolerance) =
      .ok ((Position.units (lengthUnits lo hi)).le tolerance.position.twofold) := by
  have ⟨loWithin, hiWithin⟩ := endsAt.within valid
  obtain ⟨length, lengthIs, lengthAt⟩ := endsAt.length loWithin hiWithin
  rw [Arc.isNearlyEmpty, lengthIs, ok_bind, Value.twice_number, ok_bind, Value.le_number, Number.le,
    lengthAt, short.twice.2, Position.twofold]

theorem EndsAt.isNearlyFull (endsAt : arc.EndsAt lo hi) (valid : arc.Valid)
    (short : tolerance.IsShort) :
    arc.isNearlyFull (.number tolerance) =
      .ok ((fullLengthBound tolerance.position).le (.units (lengthUnits lo hi))) := by
  have ⟨loWithin, hiWithin⟩ := endsAt.within valid
  obtain ⟨length, lengthIs, lengthAt⟩ := endsAt.length loWithin hiWithin
  obtain ⟨bound, boundIs, boundAt⟩ := short.isExact.real_sub halfTurn
  have doubledAt : (Number.real bound).twice.position = fullLengthBound tolerance.position := by
    rw [Number.twice, Number.position, Binary64.position_twice_eq_plus, boundAt, halfTurn_position,
      fullLengthBound, Position.twofold]
  rw [Arc.isNearlyFull, lengthIs, ok_bind, Value.sub_number, boundIs, ok_bind, pure_eq_ok, Number.le,
    doubledAt, lengthAt]

theorem nearlySameAngle_of_position {source target : Value} {sourceCount targetCount : Int}
    (sourceAt : source.position = .units sourceCount)
    (targetAt : target.position = .units targetCount)
    (sourceWithin : sourceCount.natAbs ≤ halfTurnUnits)
    (targetWithin : targetCount.natAbs ≤ halfTurnUnits) :
    nearlySameAngle source target (.number tolerance) =
      .ok ((Position.units (angleOffset sourceCount targetCount)).le tolerance.position) := by
  obtain ⟨sourceNumber, rfl⟩ := Value.IsAngle.eq_number ⟨_, sourceAt, sourceWithin⟩
  obtain ⟨targetNumber, rfl⟩ := Value.IsAngle.eq_number ⟨_, targetAt, targetWithin⟩
  have limit := halfTurnUnits_le_exactLimit
  obtain ⟨offset, offsetIs, offsetAt⟩ :=
    Number.sub_of_position targetAt sourceAt (by omega) (by omega) (by omega)
  have offsetWithin := (turnRounding (targetCount - sourceCount) (by omega)).within
  obtain ⟨wrapped, wraps, wrappedAt⟩ := Number.wrap_of_position offsetAt offsetWithin
  have sizeAt : (Number.real wrapped.abs).position =
      .units (angleOffset sourceCount targetCount) := Binary64.position_abs wrappedAt
  rw [nearlySameAngle, Value.sub_number, offsetIs, ok_bind, wraps, ok_bind, Value.le_number,
    Number.le, sizeAt]

theorem EndsAt.nearlySameLength (endsAt : arc.EndsAt lo hi) (valid : arc.Valid)
    (otherAt : other.EndsAt otherLo otherHi) (otherValid : other.Valid)
    (short : tolerance.IsShort) :
    arc.nearlySameLength other (.number tolerance) =
      .ok ((Position.units (lengthOffset lo hi otherLo otherHi)).le tolerance.position.twofold) := by
  have ⟨loWithin, hiWithin⟩ := endsAt.within valid
  have ⟨otherLoWithin, otherHiWithin⟩ := otherAt.within otherValid
  obtain ⟨length, lengthIs, lengthAt⟩ := endsAt.length loWithin hiWithin
  obtain ⟨otherLength, otherLengthIs, otherLengthAt⟩ := otherAt.length otherLoWithin otherHiWithin
  have bound := natAbs_lengthUnits_le loWithin hiWithin
  have otherBound := natAbs_lengthUnits_le otherLoWithin otherHiWithin
  have limit := halfTurnUnits_le_exactLimit
  obtain ⟨difference, differs, differenceAt⟩ :=
    Number.sub_of_position lengthAt otherLengthAt (by omega) (by omega) (by omega)
  have sizeAt : difference.abs.position = .units (lengthOffset lo hi otherLo otherHi) :=
    Number.position_abs differenceAt
  rw [Arc.nearlySameLength, lengthIs, ok_bind, otherLengthIs, ok_bind, differs, ok_bind,
    Value.twice_number, ok_bind, Value.le_number, Number.le, sizeAt, short.twice.2, Position.twofold]

/-- Approximate equality never fails, and it depends on places only. -/
theorem EndsAt.approxEquals (endsAt : arc.EndsAt lo hi) (valid : arc.Valid)
    (otherAt : other.EndsAt otherLo otherHi) (otherValid : other.Valid)
    (short : tolerance.IsShort) :
    arc.approxEquals other (.number tolerance) =
      .ok (nearlyEqual lo hi otherLo otherHi tolerance.position) := by
  have ⟨loWithin, hiWithin⟩ := endsAt.within valid
  have ⟨otherLoWithin, otherHiWithin⟩ := otherAt.within otherValid
  unfold Arc.approxEquals nearlyEqual
  simp only [endsAt.isEmpty_iff, otherAt.isEmpty_iff, endsAt.isFull_iff, otherAt.isFull_iff]
  split
  · exact otherAt.isNearlyEmpty otherValid short
  split
  · exact endsAt.isNearlyEmpty valid short
  split
  · exact otherAt.isNearlyFull otherValid short
  split
  · exact endsAt.isNearlyFull valid short
  rw [nearlySameAngle_of_position endsAt.lo_at otherAt.lo_at loWithin otherLoWithin,
    nearlySameAngle_of_position endsAt.hi_at otherAt.hi_at hiWithin otherHiWithin,
    endsAt.nearlySameLength valid otherAt otherValid short, ok_bind, ok_bind]
  cases (Position.units (angleOffset lo otherLo)).le tolerance.position with
  | false => rfl
  | true =>
    cases (Position.units (angleOffset hi otherHi)).le tolerance.position with
    | false => rfl
    | true => rfl

end Arc

/-!
## A tolerance relation
-/

variable {lo hi otherLo otherHi : Int} {tolerance larger : Position}

theorem wrappedUnits_neg (count : Int) : wrappedUnits (-count) = -wrappedUnits count := by
  have positive := halfTurnUnits_pos
  unfold wrappedUnits
  split
  · rw [if_neg (by omega), if_pos (by omega)]
    ring
  · split
    · rw [if_pos (by omega)]
      ring
    · rw [if_neg (by omega), if_neg (by omega)]

theorem angleOffset_comm (source target : Int) :
    angleOffset source target = angleOffset target source := by
  rw [angleOffset, ← neg_sub, roundedUnits_neg, wrappedUnits_neg, abs_neg, angleOffset]

theorem lengthOffset_comm (lo hi otherLo otherHi : Int) :
    lengthOffset lo hi otherLo otherHi = lengthOffset otherLo otherHi lo hi := by
  rw [lengthOffset, ← neg_sub, roundedUnits_neg, abs_neg, lengthOffset]

theorem angleOffset_self (angle : Int) : angleOffset angle angle = 0 := by
  have positive := halfTurnUnits_pos
  rw [angleOffset, sub_self, roundedUnits_zero, wrappedUnits, if_neg (by omega), if_neg (by omega),
    abs_zero]

theorem lengthOffset_self (lo hi : Int) : lengthOffset lo hi lo hi = 0 := by
  rw [lengthOffset, sub_self, roundedUnits_zero, abs_zero]

theorem nearlyEqual_comm (lo hi otherLo otherHi : Int) (tolerance : Position) :
    nearlyEqual lo hi otherLo otherHi tolerance = nearlyEqual otherLo otherHi lo hi tolerance := by
  have positive := halfTurnUnits_pos
  unfold nearlyEqual
  rw [angleOffset_comm lo, angleOffset_comm hi, lengthOffset_comm lo]
  by_cases empty : lo = halfTurnUnits ∧ hi = -halfTurnUnits
  · by_cases otherEmpty : otherLo = halfTurnUnits ∧ otherHi = -halfTurnUnits
    · obtain ⟨rfl, rfl⟩ := empty
      obtain ⟨rfl, rfl⟩ := otherEmpty
      rfl
    · rw [if_pos empty, if_neg otherEmpty, if_pos empty]
  · by_cases otherEmpty : otherLo = halfTurnUnits ∧ otherHi = -halfTurnUnits
    · rw [if_neg empty, if_pos otherEmpty, if_pos otherEmpty]
    · rw [if_neg empty, if_neg otherEmpty, if_neg otherEmpty, if_neg empty]
      by_cases full : lo = -halfTurnUnits ∧ hi = halfTurnUnits
      · by_cases otherFull : otherLo = -halfTurnUnits ∧ otherHi = halfTurnUnits
        · obtain ⟨rfl, rfl⟩ := full
          obtain ⟨rfl, rfl⟩ := otherFull
          rfl
        · rw [if_pos full, if_neg otherFull, if_pos full]
      · by_cases otherFull : otherLo = -halfTurnUnits ∧ otherHi = halfTurnUnits
        · rw [if_neg full, if_pos otherFull, if_pos otherFull]
        · rw [if_neg full, if_neg otherFull, if_neg otherFull, if_neg full]

theorem fullLengthBound_antitone (order : tolerance.le larger = true) :
    (fullLengthBound larger).le (fullLengthBound tolerance) = true :=
  Position.twofold_mono (Position.plus_opposite_antitone halfTurnUnits order)

theorem nearlyEqual_mono (order : tolerance.le larger = true) :
    nearlyEqual lo hi otherLo otherHi tolerance = true →
      nearlyEqual lo hi otherLo otherHi larger = true := by
  have twice := Position.twofold_mono order
  have bound := fullLengthBound_antitone order
  unfold nearlyEqual
  split
  · exact fun near => Position.le_trans near twice
  split
  · exact fun near => Position.le_trans near twice
  split
  · exact fun near => Position.le_trans bound near
  split
  · exact fun near => Position.le_trans bound near
  simp only [Bool.and_eq_true]
  rintro ⟨⟨loNear, hiNear⟩, lengthNear⟩
  exact ⟨⟨Position.le_trans loNear order, Position.le_trans hiNear order⟩,
    Position.le_trans lengthNear twice⟩

theorem twofold_units {count : Int} (within : (2 * count).natAbs ≤ exactLimit) :
    (Position.units count).twofold = .units (roundedUnits (2 * count)) := by
  rw [two_mul] at within ⊢
  exact Position.units_plus_units within

theorem fullLengthBound_units {count : Int} (within : count.natAbs ≤ halfTurnUnits) :
    fullLengthBound (.units count) =
      .units (roundedUnits (2 * roundedUnits (halfTurnUnits - count))) := by
  have limit := exactLimit_eq_mul
  have size := halfTurnUnits_eq_mul
  have positive := epsilonUnits_pos
  have near := four_epsilon_isGrain.near_rounded (halfTurnUnits - count) (by omega)
  rw [fullLengthBound, Position.opposite, Position.plus, ← sub_eq_add_neg,
    Binary64.position_ofUnits _ (nearestMagnitude_lt_of_le_exactLimit (by omega)),
    twofold_units (by omega)]

theorem twofold_zero : (Position.units 0).twofold = .units 0 := by
  rw [twofold_units (Nat.zero_le _), mul_zero, roundedUnits_zero]

theorem twofold_halfTurn :
    (Position.units halfTurnUnits).twofold = .units (2 * halfTurnUnits) := by
  have limit := halfTurnUnits_le_exactLimit
  rw [twofold_units (by omega), roundedUnits_fullTurn]

theorem fullLengthBound_zero : fullLengthBound (.units 0) = .units (2 * halfTurnUnits) := by
  rw [fullLengthBound_units (Nat.zero_le _), sub_zero, roundedUnits_halfTurn, roundedUnits_fullTurn]

theorem nearlyEqual_self (nonneg : (Position.units 0).le tolerance = true) :
    nearlyEqual lo hi lo hi tolerance = true := by
  have twice := Position.twofold_mono nonneg
  have bound := fullLengthBound_antitone nonneg
  rw [twofold_zero] at twice
  rw [fullLengthBound_zero] at bound
  unfold nearlyEqual
  split
  · rename_i empty
    have one := unitsPerOne_pos
    rw [empty.1, empty.2, lengthUnits_empty]
    refine Position.le_trans ?_ twice
    rw [Position.le_units, decide_eq_true_eq]
    omega
  split
  · rename_i full
    rw [full.1, full.2, lengthUnits_full]
    exact bound
  rw [angleOffset_self, angleOffset_self, lengthOffset_self, nonneg, twice]
  rfl

namespace Arc

variable {arc other : Arc}

/-- For every floating-point tolerance both orders of two arcs give the same answer, which is yes for
an arc and itself unless the tolerance is negative or undefined, and stays yes as the tolerance
grows. -/
theorem Valid.approxEquals_is_tolerance_relation (arcValid : arc.Valid) (otherValid : other.Valid)
    (tolerance smaller larger : Binary64) :
    (∃ answer, arc.approxEquals other (.number tolerance) = .ok answer ∧
        other.approxEquals arc (.number tolerance) = .ok answer) ∧
      ((Number.integer 0).le tolerance = true →
        arc.approxEquals arc (.number tolerance) = .ok true) ∧
      ((Number.real smaller).le larger = true →
        arc.approxEquals other (.number smaller) = .ok true →
          arc.approxEquals other (.number larger) = .ok true) := by
  obtain ⟨lo, hi, endsAt, -⟩ := arcValid.exists_endsAt
  obtain ⟨otherLo, otherHi, otherAt, -⟩ := otherValid.exists_endsAt
  have answers (number : Binary64) :=
    endsAt.approxEquals arcValid otherAt otherValid (Number.isShort_real number)
  refine ⟨⟨_, answers tolerance, ?_⟩, fun nonneg => ?_, fun order near => ?_⟩
  · rw [nearlyEqual_comm]
    exact otherAt.approxEquals otherValid endsAt arcValid (Number.isShort_real tolerance)
  · rw [Number.le, Number.integer_zero_position] at nonneg
    rw [endsAt.approxEquals arcValid endsAt arcValid (Number.isShort_real tolerance),
      nearlyEqual_self nonneg]
  · rw [answers, Except.ok.injEq] at near ⊢
    exact nearlyEqual_mono order near

/-- The full circle equals the empty arc within half a turn, and hence within any larger tolerance;
an undefined tolerance answers alike both ways round. -/
theorem Valid.approxEquals_is_tolerance_relation_of_full_and_empty :
    full.Valid ∧ empty.Valid ∧
      (∃ answer, full.approxEquals empty (.number Binary64.nan) = .ok answer ∧
        empty.approxEquals full (.number Binary64.nan) = .ok answer) ∧
      full.approxEquals full (.number halfTurn) = .ok true ∧
      full.approxEquals empty (.number (.real (.infinite false))) = .ok true := by
  have positive := halfTurnUnits_pos
  have nonneg : (Number.integer 0).le halfTurn = true := by
    rw [Number.le_of_position Number.integer_zero_position Number.real_halfTurn_position]
    exact decide_eq_true (by omega)
  have near : full.approxEquals empty (.number halfTurn) = .ok true := by
    rw [full_endsAt.approxEquals full_valid empty_endsAt empty_valid (Number.isShort_real halfTurn),
      nearlyEqual, if_neg (by omega), if_pos ⟨rfl, rfl⟩, lengthUnits_full, Number.position,
      halfTurn_position, twofold_halfTurn, Position.le_units, decide_eq_true (le_refl _)]
  obtain ⟨both, -, -⟩ :=
    full_valid.approxEquals_is_tolerance_relation empty_valid .nan .nan .nan
  obtain ⟨-, itself, grows⟩ :=
    full_valid.approxEquals_is_tolerance_relation empty_valid halfTurn halfTurn (.infinite false)
  exact ⟨full_valid, empty_valid, both, itself nonneg, grows rfl near⟩

end Arc

end CircularArc
