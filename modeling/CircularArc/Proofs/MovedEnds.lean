import CircularArc.Proofs.ArcLength
import CircularArc.Proofs.Growth

/-!
# Where moved ends come to stand

Moving an end by a margin rounds once. Where that brings it no further than a full turn, bringing it
back within half a turn is exact, and so is the canonical form of the moved arc, so none of these
steps fails.
-/

set_option autoImplicit false

namespace CircularArc

/-- The representative within half a turn of a count of at most a full turn. -/
def wrappedUnits (count : Int) : Int :=
  if halfTurnUnits < count then count - 2 * halfTurnUnits
  else if count < -halfTurnUnits then count + 2 * halfTurnUnits
  else count

/-- The representative above minus half a turn, up to half a turn, of a count of at most a full
turn. -/
def canonicalUnits (count : Int) : Int :=
  if halfTurnUnits < count then count - 2 * halfTurnUnits
  else if count ≤ -halfTurnUnits then count + 2 * halfTurnUnits
  else count

def movedLo (lo count : Int) : Int := canonicalUnits (roundedUnits (lo - count))

/-- The count at which an upper end comes to stand that is moved on by `count`. Ends that are moved
to the two directions of half a turn are those of the empty arc. -/
def movedHi (lo hi count : Int) : Int :=
  if roundedUnits (hi + count) = -halfTurnUnits ∧ roundedUnits (lo - count) = halfTurnUnits then
    -halfTurnUnits
  else canonicalUnits (roundedUnits (hi + count))

variable {count : Int}

theorem natAbs_wrappedUnits_le (within : count.natAbs ≤ 2 * halfTurnUnits) :
    (wrappedUnits count).natAbs ≤ halfTurnUnits := by
  unfold wrappedUnits
  split
  · omega
  · split <;> omega

/-- Taking away a full turn is exact: beyond half a turn the grid is at least as coarse as below. -/
theorem roundedUnits_wrappedUnits (exact : roundedUnits count = count)
    (within : count.natAbs ≤ 2 * halfTurnUnits) :
    roundedUnits (wrappedUnits count) = wrappedUnits count := by
  have size := halfTurnUnits_eq_mul
  have turnAligned : (2 * epsilonUnits : Int) ∣ 2 * halfTurnUnits :=
    Dvd.dvd.mul_left two_dvd_halfTurn 2
  have bounded := natAbs_wrappedUnits_le within
  by_cases inside : count.natAbs ≤ halfTurnUnits
  · have unmoved : wrappedUnits count = count := by
      unfold wrappedUnits
      rw [if_neg (by omega), if_neg (by omega)]
    rw [unmoved, exact]
  · have aligned := two_epsilon_isGrain.dvd_rounded count (by omega)
    rw [exact] at aligned
    refine two_epsilon_isGrain.rounded_of_dvd ?_ (by omega)
    unfold wrappedUnits
    split
    · exact Int.dvd_sub aligned turnAligned
    · split
      · exact Int.dvd_add aligned turnAligned
      · exact aligned

theorem canonicalUnits_of_within (above : -halfTurnUnits < count) (below : count ≤ halfTurnUnits) :
    canonicalUnits count = count := by
  unfold canonicalUnits
  rw [if_neg (by omega), if_neg (by omega)]

theorem canonicalUnits_of_gt (beyond : (halfTurnUnits : Int) < count) :
    canonicalUnits count = count - 2 * halfTurnUnits :=
  if_pos beyond

theorem canonicalUnits_of_le (beyond : count ≤ -halfTurnUnits) :
    canonicalUnits count = count + 2 * halfTurnUnits := by
  unfold canonicalUnits
  rw [if_neg (by omega), if_pos beyond]

theorem neg_halfTurn_lt_canonicalUnits (within : count.natAbs ≤ 2 * halfTurnUnits) :
    -halfTurnUnits < canonicalUnits count := by
  have positive := halfTurnUnits_pos
  unfold canonicalUnits
  split
  · omega
  · split <;> omega

/-- What is known of the count to which a count of at most a full turn is rounded. Within half a turn
the error is half as large. -/
structure TurnRounding (total rounded : Int) : Prop where
  le : rounded ≤ total + 2 * epsilonUnits
  ge : total ≤ rounded + 2 * epsilonUnits
  fine : rounded.natAbs ≤ halfTurnUnits →
    rounded ≤ total + epsilonUnits ∧ total ≤ rounded + epsilonUnits
  within : rounded.natAbs ≤ 2 * halfTurnUnits
  exact : roundedUnits rounded = rounded

theorem turnRounding (total : Int) (within : total.natAbs ≤ 2 * halfTurnUnits) :
    TurnRounding total (roundedUnits total) := by
  have size := halfTurnUnits_eq_mul
  have positive := epsilonUnits_pos
  have limit := exactLimit_eq_mul
  have near := four_epsilon_isGrain.near_rounded total (by omega)
  have bounded := natAbs_roundedUnits_le representable_fullTurnUnits
    (show total.natAbs ≤ fullTurnUnits by unfold fullTurnUnits; omega)
  refine ⟨by omega, by omega, fun small => ?_, bounded, roundedUnits_roundedUnits (by omega)⟩
  have fine := two_epsilon_isGrain.near_rounded total (by omega)
  omega

namespace TurnRounding

variable {total rounded : Int} (rounding : TurnRounding total rounded)
include rounding

theorem canonical_exact : roundedUnits (canonicalUnits rounded) = canonicalUnits rounded := by
  have wrapped := roundedUnits_wrappedUnits rounding.exact rounding.within
  by_cases least : rounded = -halfTurnUnits
  · have lifted : canonicalUnits rounded = halfTurnUnits := by
      rw [canonicalUnits_of_le (by omega)]
      omega
    rw [lifted]
    exact roundedUnits_halfTurn
  · have same : canonicalUnits rounded = wrappedUnits rounded := by
      unfold canonicalUnits wrappedUnits
      grind
    rwa [same]

end TurnRounding

theorem nearestQuotient_fullTurn {units : Nat} (within : units ≤ 2 * halfTurnUnits) :
    nearestQuotient units fullTurnUnits = if units ≤ halfTurnUnits then 0 else 1 := by
  have positive := halfTurnUnits_pos
  unfold nearestQuotient fullTurnUnits
  rcases Nat.lt_or_eq_of_le within with less | whole
  · simp only [Nat.div_eq_of_lt less, Nat.mod_eq_of_lt less, Nat.zero_mod, and_true, Nat.zero_add]
    split <;> split <;> omega
  · simp only [whole, Nat.div_self (show 0 < 2 * halfTurnUnits by omega), Nat.mod_self]
    split <;> split <;> omega

theorem Number.wrap_of_position {number : Number} (stands : number.position = .units count)
    (within : count.natAbs ≤ 2 * halfTurnUnits) :
    ∃ wrapped, number.wrap = .ok wrapped ∧ wrapped.position = .units (wrappedUnits count) := by
  have limit := halfTurnUnits_le_exactLimit
  have exact := roundedUnits_of_position stands (by omega)
  have bounded := natAbs_wrappedUnits_le within
  have wrappedExact := roundedUnits_wrappedUnits exact within
  obtain ⟨nearest, converts, nearestAt⟩ := toBinary64_of_position stands (by omega)
  obtain ⟨negative, units, aligned, rfl, signed⟩ := Binary64.position_eq_units_iff.mp nearestAt
  have unitsIs : units = count.natAbs := by
    rw [← signed, Binary64.natAbs_signedUnits]
  have total : (if negative then -((units : Int) - nearestQuotient units fullTurnUnits *
      fullTurnUnits) else units - nearestQuotient units fullTurnUnits * fullTurnUnits) =
      wrappedUnits count := by
    rw [nearestQuotient_fullTurn (by omega), fullTurnUnits]
    unfold Binary64.signedUnits at signed
    unfold wrappedUnits
    cases negative with
    | true =>
      simp only [↓reduceIte] at signed ⊢
      split <;> split <;> (try split) <;> omega
    | false =>
      simp only [Bool.false_eq_true, ↓reduceIte] at signed ⊢
      split <;> split <;> (try split) <;> omega
  unfold wrap
  simp only [converts, ok_bind, pure_eq_ok, total]
  refine ⟨_, rfl, ?_⟩
  rw [Binary64.position_ofUnits, wrappedExact]
  exact nearestMagnitude_lt_of_le_exactLimit (by omega)

theorem checkedEnd_of_position {value : Binary64} (stands : value.position = .units count)
    (within : count.natAbs ≤ halfTurnUnits) : checkedEnd (.number value) = .ok value := by
  have realAt : (Number.real value).position = .units count := stands
  have finite := Binary64.isFinite_of_position stands
  have notAbove : (Number.real halfTurn).lt (.real value) = false := by
    rw [Number.lt_of_position Number.real_halfTurn_position realAt, decide_eq_false_iff_not]
    omega
  have notBelow : (Number.real value).lt (.real minusHalfTurn) = false := by
    rw [Number.lt_of_position realAt Number.real_minusHalfTurn_position, decide_eq_false_iff_not]
    omega
  simp only [checkedEnd, Number.toBinary64_real, finite, notAbove, notBelow, Bool.not_true,
    Bool.false_eq_true, ↓reduceIte]

theorem Value.le_of_position {left right : Value} {leftCount rightCount : Int}
    (leftAt : left.position = .units leftCount) (rightAt : right.position = .units rightCount) :
    left.le right = .ok (decide (leftCount ≤ rightCount)) := by
  cases left with
  | number leftNumber =>
    cases right with
    | number rightNumber => rw [Value.le_number, Number.le_of_position leftAt rightAt]
    | null | text | list => cases rightAt
  | null | text | list => cases leftAt

namespace Arc

variable {arc : Arc} {lo hi : Int}

theorem canonical_endsAt {lower upper : Number} (loAt : lower.position = .units lo)
    (hiAt : upper.position = .units hi) :
    (canonical lower upper).EndsAt
      (if lo = -halfTurnUnits ∧ hi ≠ halfTurnUnits then halfTurnUnits else lo)
      (if hi = -halfTurnUnits ∧ lo ≠ halfTurnUnits then halfTurnUnits else hi) := by
  have minusAt := Number.real_minusHalfTurn_position
  have halfAt := Number.real_halfTurn_position
  constructor
  · simp only [canonical, Value.position_number, Number.same_of_position loAt minusAt,
      Number.same_of_position hiAt halfAt, Bool.and_eq_true, Bool.not_eq_true', decide_eq_true_eq,
      decide_eq_false_iff_not, ← ne_eq]
    split
    · exact halfAt
    · exact loAt
  · simp only [canonical, Value.position_number, Number.same_of_position hiAt minusAt,
      Number.same_of_position loAt halfAt, Bool.and_eq_true, Bool.not_eq_true', decide_eq_true_eq,
      decide_eq_false_iff_not, ← ne_eq]
    split
    · exact halfAt
    · exact hiAt

private theorem lifted_eq_canonicalUnits {lower upper : Int}
    (within : lower.natAbs ≤ 2 * halfTurnUnits) :
    (if (if wrappedUnits lower = -halfTurnUnits ∧ wrappedUnits upper ≠ halfTurnUnits then
          (halfTurnUnits : Int) else wrappedUnits lower) ≤ -halfTurnUnits then (halfTurnUnits : Int)
      else if wrappedUnits lower = -halfTurnUnits ∧ wrappedUnits upper ≠ halfTurnUnits then
        (halfTurnUnits : Int) else wrappedUnits lower) = canonicalUnits lower := by
  unfold canonicalUnits wrappedUnits
  grind

private theorem capped_eq_canonicalUnits {lower upper : Int}
    (lowerWithin : lower.natAbs ≤ 2 * halfTurnUnits)
    (upperWithin : upper.natAbs ≤ 2 * halfTurnUnits) :
    (if wrappedUnits upper = -halfTurnUnits ∧ wrappedUnits lower ≠ halfTurnUnits then
        (halfTurnUnits : Int) else wrappedUnits upper) =
      if upper = -halfTurnUnits ∧ lower = halfTurnUnits then -(halfTurnUnits : Int)
      else canonicalUnits upper := by
  have positive := halfTurnUnits_pos
  unfold canonicalUnits wrappedUnits
  grind

private theorem EndsAt.lift (endsAt : arc.EndsAt lo hi) :
    ∃ result, (do return if ← arc.lo.le minusHalfTurn then ⟨.number halfTurn, arc.hi⟩ else arc) =
        Except.ok (ε := Fault) result ∧
      result.EndsAt (if lo ≤ -halfTurnUnits then halfTurnUnits else lo) hi := by
  have tested := Value.le_of_position endsAt.lo_at
    (show (Value.number minusHalfTurn).position = _ from Number.real_minusHalfTurn_position)
  rw [tested, ok_bind]
  by_cases lowest : lo ≤ -halfTurnUnits
  · simp only [lowest, decide_true, ↓reduceIte]
    exact ⟨_, rfl, Number.real_halfTurn_position, endsAt.hi_at⟩
  · simp only [lowest, decide_false, Bool.false_eq_true, ↓reduceIte]
    exact ⟨_, rfl, endsAt⟩

theorem EndsAt.exists_sums (endsAt : arc.EndsAt lo hi) (loWithin : lo.natAbs ≤ halfTurnUnits)
    (hiWithin : hi.natAbs ≤ halfTurnUnits) {margin : Binary64}
    (marginAt : margin.position = .units count) (marginWithin : count.natAbs ≤ 3 * halfTurnUnits) :
    ∃ lower upper, arc.lo.sub margin = .ok lower ∧ arc.hi.add margin = .ok upper ∧
      lower.position = .units (roundedUnits (lo - count)) ∧
      upper.position = .units (roundedUnits (hi + count)) := by
  obtain ⟨loEnd, hiEnd⟩ := arc
  obtain ⟨loNumber, rfl⟩ := Value.IsAngle.eq_number ⟨lo, endsAt.lo_at, loWithin⟩
  obtain ⟨hiNumber, rfl⟩ := Value.IsAngle.eq_number ⟨hi, endsAt.hi_at, hiWithin⟩
  have limit := halfTurnUnits_le_exactLimit
  have marginReal := Number.position_real marginAt
  obtain ⟨lower, loMoves, lowerAt⟩ :=
    Number.sub_of_position endsAt.lo_at marginReal (by omega) (by omega) (by omega)
  obtain ⟨upper, hiMoves, upperAt⟩ :=
    Number.add_of_position endsAt.hi_at marginReal (by omega) (by omega) (by omega)
  refine ⟨lower, upper, ?_, ?_, lowerAt, upperAt⟩
  · rw [Value.sub_number, loMoves]
  · rw [Value.add_number, hiMoves]

theorem EndsAt.moveEnds_of_within (endsAt : arc.EndsAt lo hi) (loWithin : lo.natAbs ≤ halfTurnUnits)
    (hiWithin : hi.natAbs ≤ halfTurnUnits) {margin : Binary64}
    (marginAt : margin.position = .units count) (loNear : (lo - count).natAbs ≤ 2 * halfTurnUnits)
    (hiNear : (hi + count).natAbs ≤ 2 * halfTurnUnits) :
    ∃ result, arc.moveEnds margin = .ok result ∧ result.Valid ∧
      result.EndsAt (movedLo lo count) (movedHi lo hi count) := by
  obtain ⟨loMoved, hiMoved, loMoves, hiMoves, loMovedAt, hiMovedAt⟩ :=
    endsAt.exists_sums loWithin hiWithin marginAt (by omega)
  have loMovedWithin := natAbs_roundedUnits_le representable_fullTurnUnits
    (show (lo - count).natAbs ≤ fullTurnUnits by unfold fullTurnUnits; omega)
  have hiMovedWithin := natAbs_roundedUnits_le representable_fullTurnUnits
    (show (hi + count).natAbs ≤ fullTurnUnits by unfold fullTurnUnits; omega)
  have lowerWithin := natAbs_wrappedUnits_le loMovedWithin
  have upperWithin := natAbs_wrappedUnits_le hiMovedWithin
  obtain ⟨loWrapped, loWraps, loWrappedAt⟩ := Number.wrap_of_position loMovedAt loMovedWithin
  obtain ⟨hiWrapped, hiWraps, hiWrappedAt⟩ := Number.wrap_of_position hiMovedAt hiMovedWithin
  have accepted : checked (.number loWrapped) (.number hiWrapped) =
      .ok (canonical loWrapped hiWrapped) :=
    checked_of_checkedEnd (checkedEnd_of_position loWrappedAt lowerWithin)
      (checkedEnd_of_position hiWrappedAt upperWithin)
  have canonicalAt := canonical_endsAt
    (Number.position_real loWrappedAt) (Number.position_real hiWrappedAt)
  obtain ⟨result, lifts, resultAt⟩ := canonicalAt.lift
  have moves : arc.moveEnds margin = .ok result := by
    simp only [Arc.moveEnds, loMoves, hiMoves, ok_bind, loWraps, hiWraps, accepted]
    exact lifts
  refine ⟨result, moves, moveEnds_valid moves, ?_⟩
  rw [lifted_eq_canonicalUnits loMovedWithin,
    capped_eq_canonicalUnits loMovedWithin hiMovedWithin] at resultAt
  exact resultAt

/-- Moving both ends by a margin of at most half a turn never fails. -/
theorem EndsAt.moveEnds (endsAt : arc.EndsAt lo hi) (loWithin : lo.natAbs ≤ halfTurnUnits)
    (hiWithin : hi.natAbs ≤ halfTurnUnits) {margin : Binary64}
    (marginAt : margin.position = .units count) (marginWithin : count.natAbs ≤ halfTurnUnits) :
    ∃ result, arc.moveEnds margin = .ok result ∧ result.Valid ∧
      result.EndsAt (movedLo lo count) (movedHi lo hi count) :=
  endsAt.moveEnds_of_within loWithin hiWithin marginAt (by omega) (by omega)

end Arc

end CircularArc
