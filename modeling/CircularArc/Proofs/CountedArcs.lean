import CircularArc.Proofs.Containment
import CircularArc.Proofs.RoundingGrid
import Mathlib.Algebra.Group.ModEq

/-!
# Arcs between counts of units

The ends of a valid arc stand at two counts of units, numbers of the format within half a turn. What
is asked of arcs is a matter of these counts: their shape, containment, and exact length.
-/

set_option autoImplicit false

namespace CircularArc

/-- The arc between the first two counts contains the arc between the other two. -/
def CoversCounts (lo hi otherLo otherHi : Int) : Prop :=
  if hi < lo then
    if otherHi < otherLo then lo ≤ otherLo ∧ otherHi ≤ hi
    else (lo ≤ otherLo ∨ otherHi ≤ hi) ∧ ¬ (lo = halfTurnUnits ∧ hi = -halfTurnUnits)
  else if otherHi < otherLo then
    (lo = -halfTurnUnits ∧ hi = halfTurnUnits) ∨
      (otherLo = halfTurnUnits ∧ otherHi = -halfTurnUnits)
  else lo ≤ otherLo ∧ otherHi ≤ hi

/-- The count of units that makes up the exact length of an arc. -/
def spanUnits (lo hi : Int) : Int :=
  if lo ≤ hi then hi - lo else hi - lo + 2 * halfTurnUnits

/-- Counts of the format at which the ends of an arc stand that does not pass half a turn. -/
structure NormalCounts (lo hi : Int) : Prop where
  above : -halfTurnUnits < lo
  order : lo ≤ hi
  below : hi ≤ halfTurnUnits
  lo_exact : roundedUnits lo = lo
  hi_exact : roundedUnits hi = hi

/-- Counts of the format at which the ends of an arc stand that passes half a turn. -/
structure InvertedCounts (lo hi : Int) : Prop where
  above : -halfTurnUnits < hi
  order : hi < lo
  below : lo ≤ halfTurnUnits
  lo_exact : roundedUnits lo = lo
  hi_exact : roundedUnits hi = hi

/-- Counts at which the ends of a valid arc stand. -/
inductive ValidCounts (lo hi : Int) : Prop where
  | empty (loAt : lo = halfTurnUnits) (hiAt : hi = -halfTurnUnits)
  | full (loAt : lo = -halfTurnUnits) (hiAt : hi = halfTurnUnits)
  | normal (counts : NormalCounts lo hi)
  | inverted (counts : InvertedCounts lo hi)

theorem ValidCounts.within {lo hi : Int} (counts : ValidCounts lo hi) :
    lo.natAbs ≤ halfTurnUnits ∧ hi.natAbs ≤ halfTurnUnits := by
  cases counts with
  | empty loAt hiAt | full loAt hiAt => omega
  | normal counts =>
    have := counts.above
    have := counts.order
    have := counts.below
    omega
  | inverted counts =>
    have := counts.above
    have := counts.order
    have := counts.below
    omega

section Counts

variable {lo hi otherLo otherHi : Int}

theorem spanUnits_of_le (order : lo ≤ hi) : spanUnits lo hi = hi - lo := if_pos order

theorem spanUnits_of_lt (order : hi < lo) : spanUnits lo hi = hi - lo + 2 * halfTurnUnits :=
  if_neg (not_le.mpr order)

theorem covers_of_le_of_le (order : lo ≤ hi) (otherOrder : otherLo ≤ otherHi)
    (loInside : lo ≤ otherLo) (hiInside : otherHi ≤ hi) : CoversCounts lo hi otherLo otherHi := by
  unfold CoversCounts
  rw [if_neg (not_lt.mpr order), if_neg (not_lt.mpr otherOrder)]
  exact ⟨loInside, hiInside⟩

theorem covers_of_lt_of_lt (order : hi < lo) (otherOrder : otherHi < otherLo)
    (loInside : lo ≤ otherLo) (hiInside : otherHi ≤ hi) : CoversCounts lo hi otherLo otherHi := by
  unfold CoversCounts
  rw [if_pos order, if_pos otherOrder]
  exact ⟨loInside, hiInside⟩

theorem covers_of_lt_of_le (order : hi < lo) (above : -halfTurnUnits < hi)
    (otherOrder : otherLo ≤ otherHi) (inside : lo ≤ otherLo ∨ otherHi ≤ hi) :
    CoversCounts lo hi otherLo otherHi := by
  unfold CoversCounts
  rw [if_pos order, if_neg (not_lt.mpr otherOrder)]
  exact ⟨inside, by omega⟩

end Counts

theorem unitsValue_mul (factor count : Int) :
    unitsValue (factor * count) = factor * unitsValue count := by
  unfold unitsValue
  rw [Int.cast_mul, mul_div_assoc]

theorem unitsValue_twice (count : Int) : unitsValue (2 * count) = 2 * unitsValue count :=
  unitsValue_mul 2 count

theorem unitsValue_modEq {count other : Int} (turns : (2 * halfTurnUnits : Int) ∣ other - count) :
    unitsValue count ≡ unitsValue other [PMOD 2 * halfCircle] := by
  obtain ⟨number, apart⟩ := turns
  refine AddCommGroup.modEq_iff_zsmul'.mpr ⟨number, ?_⟩
  rw [← unitsValue_sub, apart, mul_comm, unitsValue_mul, unitsValue_twice, zsmul_eq_mul, halfCircle]

theorem neg_halfCircle : -halfCircle = unitsValue (-halfTurnUnits) := by
  rw [unitsValue_neg]
  rfl

theorem forwardGap_unitsValue (lo hi : Int) :
    forwardGap (unitsValue lo) (unitsValue hi) = unitsValue (spanUnits lo hi) := by
  unfold forwardGap spanUnits
  simp only [unitsValue_le_iff]
  split
  · rw [unitsValue_sub]
  · rw [unitsValue_add, unitsValue_sub, unitsValue_twice, halfCircle]

theorem unitsValue_epsilon : unitsValue epsilonUnits = 1 / 2 ^ 52 := by
  rw [epsilonUnits_eq, unitsValue, Int.cast_pow, Int.cast_ofNat, show 1074 = 1022 + 52 by decide,
    pow_add, ← div_div, div_self (pow_ne_zero _ two_ne_zero)]

theorem unitsValue_two_epsilon : unitsValue (2 * epsilonUnits) = 1 / 2 ^ 51 := by
  rw [unitsValue_mul, unitsValue_epsilon]
  norm_num

theorem unitsValue_four_epsilon : unitsValue (4 * epsilonUnits) = 1 / 2 ^ 50 := by
  rw [unitsValue_mul, unitsValue_epsilon]
  norm_num

theorem unitsValue_eight_epsilon : unitsValue (8 * epsilonUnits) = 1 / 2 ^ 49 := by
  rw [unitsValue_mul, unitsValue_epsilon]
  norm_num

theorem unitsValue_half : unitsValue (Binary64.unitsPerOne / 2) = 1 / 2 := by
  have one := unitsPerOne_eq_mul
  rw [show (Binary64.unitsPerOne : Int) / 2 = 2251799813685248 * epsilonUnits by omega,
    unitsValue_mul, unitsValue_epsilon]
  norm_num

theorem unitsValue_four : unitsValue (4 * Binary64.unitsPerOne) = 4 := by
  rw [unitsValue_mul, unitsPerOne_eq_mul, Nat.cast_mul, unitsValue_mul, unitsValue_epsilon]
  norm_num

namespace Arc

/-- The ends of the arc stand at two counts of units. -/
structure EndsAt (arc : Arc) (lo hi : Int) : Prop where
  lo_at : arc.lo.position = .units lo
  hi_at : arc.hi.position = .units hi

variable {arc other : Arc} {lo hi otherLo otherHi : Int}

namespace EndsAt

theorem isEmpty_iff (endsAt : arc.EndsAt lo hi) :
    arc.isEmpty = true ↔ lo = halfTurnUnits ∧ hi = -halfTurnUnits := by
  rw [isEmpty, Bool.and_eq_true, Value.isHalfTurn_iff, Value.isMinusHalfTurn_iff,
    Value.IsHalfTurn, Value.IsMinusHalfTurn, endsAt.lo_at, endsAt.hi_at, Position.units.injEq,
    Position.units.injEq]

theorem isFull_iff (endsAt : arc.EndsAt lo hi) :
    arc.isFull = true ↔ lo = -halfTurnUnits ∧ hi = halfTurnUnits := by
  rw [isFull, Bool.and_eq_true, Value.isHalfTurn_iff, Value.isMinusHalfTurn_iff,
    Value.IsHalfTurn, Value.IsMinusHalfTurn, endsAt.lo_at, endsAt.hi_at, Position.units.injEq,
    Position.units.injEq]

theorem lo_exact (endsAt : arc.EndsAt lo hi) : arc.lo.exactValue = unitsValue lo :=
  Value.exactValue_of_position endsAt.lo_at

theorem hi_exact (endsAt : arc.EndsAt lo hi) : arc.hi.exactValue = unitsValue hi :=
  Value.exactValue_of_position endsAt.hi_at

end EndsAt

private theorem roundedUnits_of_angle {value : Value} {count : Int}
    (stands : value.position = .units count) (within : count.natAbs ≤ halfTurnUnits) :
    roundedUnits count = count := by
  have limit := halfTurnUnits_le_exactLimit
  obtain ⟨content, rfl⟩ := Value.IsAngle.eq_number ⟨count, stands, within⟩
  exact Number.roundedUnits_of_position stands (by omega)

theorem Valid.exists_endsAt (valid : arc.Valid) :
    ∃ lo hi, arc.EndsAt lo hi ∧ ValidCounts lo hi := by
  obtain ⟨⟨lo, loAt, loWithin⟩, ⟨hi, hiAt, hiWithin⟩, hiOfLo, loOfHi⟩ := valid
  unfold Value.IsMinusHalfTurn Value.IsHalfTurn at hiOfLo loOfHi
  rw [loAt, hiAt, Position.units.injEq, Position.units.injEq] at hiOfLo loOfHi
  have loExact := roundedUnits_of_angle loAt loWithin
  have hiExact := roundedUnits_of_angle hiAt hiWithin
  refine ⟨lo, hi, ⟨loAt, hiAt⟩, ?_⟩
  by_cases loLeast : lo = -halfTurnUnits
  · exact .full loLeast (hiOfLo loLeast)
  · by_cases hiLeast : hi = -halfTurnUnits
    · exact .empty (loOfHi hiLeast) hiLeast
    · rcases le_or_gt lo hi with order | order
      · exact .normal ⟨by omega, order, by omega, loExact, hiExact⟩
      · exact .inverted ⟨by omega, order, by omega, loExact, hiExact⟩

theorem Valid.contains_iff_covers (arcValid : arc.Valid) (otherValid : other.Valid)
    (endsAt : arc.EndsAt lo hi) (otherAt : other.EndsAt otherLo otherHi) :
    arc.contains other = .ok true ↔ CoversCounts lo hi otherLo otherHi := by
  rw [(arcValid.contains_ends otherValid).eq_true_iff, endsAt.lo_exact, endsAt.hi_exact,
    otherAt.lo_exact, otherAt.hi_exact, neg_halfCircle, halfCircle]
  simp only [unitsValue_lt_iff, unitsValue_le_iff, unitsValue_inj, CoversCounts]

theorem EndsAt.within (endsAt : arc.EndsAt lo hi) (valid : arc.Valid) :
    lo.natAbs ≤ halfTurnUnits ∧ hi.natAbs ≤ halfTurnUnits := by
  obtain ⟨loCount, loAt, loWithin⟩ := valid.lo_isAngle
  obtain ⟨hiCount, hiAt, hiWithin⟩ := valid.hi_isAngle
  cases endsAt.lo_at.symm.trans loAt
  cases endsAt.hi_at.symm.trans hiAt
  exact ⟨loWithin, hiWithin⟩

theorem EndsAt.counts (endsAt : arc.EndsAt lo hi) (valid : arc.Valid) : ValidCounts lo hi := by
  obtain ⟨_, _, found, counts⟩ := valid.exists_endsAt
  cases endsAt.lo_at.symm.trans found.lo_at
  cases endsAt.hi_at.symm.trans found.hi_at
  exact counts

theorem EndsAt.exactLength (endsAt : arc.EndsAt lo hi) :
    arc.exactLength = unitsValue (spanUnits lo hi) := by
  rw [Arc.exactLength, endsAt.lo_exact, endsAt.hi_exact, forwardGap_unitsValue]

theorem full_endsAt : full.EndsAt (-halfTurnUnits) halfTurnUnits := ⟨rfl, rfl⟩

theorem full_isFull : full.isFull = true := full_endsAt.isFull_iff.mpr ⟨rfl, rfl⟩

theorem empty_endsAt : empty.EndsAt halfTurnUnits (-halfTurnUnits) := ⟨rfl, rfl⟩

theorem empty_isEmpty : empty.isEmpty = true := empty_endsAt.isEmpty_iff.mpr ⟨rfl, rfl⟩

theorem halfTurn_point_endsAt :
    (Arc.mk (.number halfTurn) (.number halfTurn)).EndsAt halfTurnUnits halfTurnUnits := ⟨rfl, rfl⟩

/-- The lower half of the circle, from half a turn on to zero. -/
def lowerHalf : Arc := ⟨.number halfTurn, .number (Binary64.zero false)⟩

theorem lowerHalf_endsAt : lowerHalf.EndsAt halfTurnUnits 0 := ⟨halfTurn_position, rfl⟩

theorem lowerHalf_nonempty : lowerHalf.isEmpty = false := by
  have positive := halfTurnUnits_pos
  rw [← Bool.not_eq_true, lowerHalf_endsAt.isEmpty_iff]
  omega

theorem lowerHalf_counts : InvertedCounts halfTurnUnits 0 := by
  have positive := halfTurnUnits_pos
  exact ⟨by omega, by omega, le_refl _, roundedUnits_halfTurn, roundedUnits_zero⟩

theorem lowerHalf_valid : lowerHalf.Valid := by
  have positive := halfCircle_pos
  have loExact := lowerHalf_endsAt.lo_exact
  have hiExact := lowerHalf_endsAt.hi_exact
  rw [unitsValue_zero] at hiExact
  refine valid_of_above Value.halfTurn_isAngle Value.zero_isAngle ?_ ?_
  · exact lt_of_lt_of_eq (neg_lt_self positive) loExact.symm
  · exact lt_of_lt_of_eq (neg_neg_of_pos positive) hiExact.symm

end Arc

end CircularArc
