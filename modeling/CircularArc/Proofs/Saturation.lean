import CircularArc.Proofs.MovedEnds

/-!
# When a margin fills the circle or empties an arc

Both decisions look at one rounded sum, the arc's length and twice the margin. Margins of more than
half a turn, the infinite ones among them, decide at once, so a margin that moves the ends is always
finite and at most half a turn.
-/

set_option autoImplicit false

namespace CircularArc

namespace Arc

variable {arc : Arc} {lo hi count : Int} {margin : Binary64}

theorem expanded_of_expansion {margin : Number} {expansion : Expansion}
    (found : arc.expansion margin = .ok expansion) :
    arc.expanded margin = .ok (expansion.toArc arc) := by
  rw [expanded, found, ok_bind, pure_eq_ok]

theorem EndsAt.expanded_of_moves (endsAt : arc.EndsAt lo hi) (loWithin : lo.natAbs ≤ halfTurnUnits)
    (hiWithin : hi.natAbs ≤ halfTurnUnits) (marginAt : margin.position = .units count)
    (marginWithin : count.natAbs ≤ halfTurnUnits)
    (moves : arc.expansion margin = arc.moveEnds margin >>= fun result => .ok (.moved result)) :
    ∃ moved, arc.expanded margin = .ok moved ∧ moved.Valid ∧
      moved.EndsAt (movedLo lo count) (movedHi lo hi count) := by
  obtain ⟨moved, movedIs, movedValid, movedAt⟩ :=
    endsAt.moveEnds loWithin hiWithin marginAt marginWithin
  rw [movedIs, ok_bind] at moves
  exact ⟨moved, expanded_of_expansion moves, movedValid, movedAt⟩

private theorem representable_twoTurns : Representable (2 * fullTurnUnits) := by
  have limit := halfTurnUnits_le_exactLimit
  have finite := exactLimit_lt
  refine representable_double representable_fullTurnUnits ?_
  unfold fullTurnUnits
  omega

private theorem fullTurn_le_rounded_iff {sum : Int} :
    2 * halfTurnUnits ≤ roundedUnits (sum + 2 * epsilonUnits) ↔
      2 * halfTurnUnits - 4 * epsilonUnits ≤ sum := by
  have size := halfTurnUnits_eq_mul
  have positive := epsilonUnits_pos
  have tie := roundedUnits_before_fullTurn
  constructor
  · intro reaches
    by_contra short
    have order := roundedUnits_mono (show sum + 2 * epsilonUnits ≤
      2 * halfTurnUnits - 2 * epsilonUnits - 1 by omega)
    have near := four_epsilon_isGrain.near_rounded (2 * halfTurnUnits - 2 * epsilonUnits - 1) (by omega)
    omega
  · intro reaches
    have order := roundedUnits_mono (show 2 * halfTurnUnits - 2 * epsilonUnits ≤
      sum + 2 * epsilonUnits by omega)
    omega

theorem position_length_add_twice {length : Binary64} (loWithin : lo.natAbs ≤ halfTurnUnits)
    (hiWithin : hi.natAbs ≤ halfTurnUnits) (lengthAt : length.position = .units (lengthUnits lo hi))
    (marginAt : margin.position = .units count) (marginWithin : count.natAbs ≤ halfTurnUnits) :
    (length.add margin.twice).position = .units (roundedUnits (lengthUnits lo hi + 2 * count)) ∧
      (roundedUnits (lengthUnits lo hi + 2 * count)).natAbs ≤ 4 * halfTurnUnits := by
  have limit := halfTurnUnits_le_exactLimit
  have bound := natAbs_lengthUnits_le loWithin hiWithin
  have sumWithin := natAbs_roundedUnits_le representable_twoTurns
    (show (lengthUnits lo hi + 2 * count).natAbs ≤ 2 * fullTurnUnits by unfold fullTurnUnits; omega)
  unfold fullTurnUnits at sumWithin
  exact ⟨Binary64.position_add lengthAt (Binary64.position_twice marginAt (by omega)) (by omega),
    by omega⟩

theorem expansion_of_isEmpty {margin : Number} (vanishing : arc.isEmpty = true)
    (nonneg : (Number.integer 0).le margin = true) : arc.expansion margin = .ok .unchanged := by
  simp only [expansion, nonneg, vanishing, ↓reduceIte, pure_eq_ok]

theorem expansion_of_isFull {margin : Number} (whole : arc.isFull = true)
    (sign : (Number.integer 0).le margin = false) : arc.expansion margin = .ok .unchanged := by
  simp only [expansion, sign, whole, Bool.false_eq_true, ↓reduceIte, pure_eq_ok]

theorem EndsAt.length_add_twice (endsAt : arc.EndsAt lo hi) (loWithin : lo.natAbs ≤ halfTurnUnits)
    (hiWithin : hi.natAbs ≤ halfTurnUnits) (margin : Binary64) :
    ∃ (length : Number) (nearest : Binary64), arc.length = .ok length ∧
      nearest.position = .units (lengthUnits lo hi) ∧
      length.add (.real margin.twice) = .ok (.real (nearest.add margin.twice)) := by
  have limit := halfTurnUnits_le_exactLimit
  have bound := natAbs_lengthUnits_le loWithin hiWithin
  obtain ⟨length, lengthIs, lengthAt⟩ := endsAt.length loWithin hiWithin
  obtain ⟨nearest, converts, nearestAt⟩ := Number.toBinary64_of_position lengthAt (by omega)
  exact ⟨length, nearest, lengthIs, nearestAt, Number.combine_real converts margin.twice⟩

theorem EndsAt.expansion_growing (endsAt : arc.EndsAt lo hi) (loWithin : lo.natAbs ≤ halfTurnUnits)
    (hiWithin : hi.natAbs ≤ halfTurnUnits)
    (nonempty : ¬ (lo = halfTurnUnits ∧ hi = -halfTurnUnits))
    (sign : (Number.integer 0).le (.real margin) = true) :
    ∃ length : Binary64, length.position = .units (lengthUnits lo hi) ∧
      arc.expansion margin =
        if (Number.real fullTurn).le (.real ((length.add margin.twice).add endAllowance)) then
          .ok .saturated
        else arc.moveEnds margin >>= fun result => .ok (.moved result) := by
  obtain ⟨length, nearest, lengthIs, nearestAt, adds⟩ :=
    endsAt.length_add_twice loWithin hiWithin margin
  have vanishing : arc.isEmpty = false := by
    rw [← Bool.not_eq_true, endsAt.isEmpty_iff]
    exact nonempty
  refine ⟨nearest, nearestAt, ?_⟩
  simp only [Arc.expansion, sign, vanishing, lengthIs, Number.twice, adds, Number.add_real,
    ok_bind, ↓reduceIte, Bool.false_eq_true, pure_eq_ok]

theorem EndsAt.expansion_shrinking (endsAt : arc.EndsAt lo hi)
    (loWithin : lo.natAbs ≤ halfTurnUnits) (hiWithin : hi.natAbs ≤ halfTurnUnits)
    (notFull : ¬ (lo = -halfTurnUnits ∧ hi = halfTurnUnits))
    (sign : (Number.integer 0).le (.real margin) = false) :
    ∃ length : Binary64, length.position = .units (lengthUnits lo hi) ∧
      arc.expansion margin =
        if (Number.real ((length.add margin.twice).sub endAllowance)).le (.integer 0) then
          .ok .collapsed
        else arc.moveEnds margin >>= fun result => .ok (.moved result) := by
  obtain ⟨length, nearest, lengthIs, nearestAt, adds⟩ :=
    endsAt.length_add_twice loWithin hiWithin margin
  have whole : arc.isFull = false := by
    rw [← Bool.not_eq_true, endsAt.isFull_iff]
    exact notFull
  refine ⟨nearest, nearestAt, ?_⟩
  simp only [Arc.expansion, sign, whole, lengthIs, Number.twice, adds, Number.sub_real,
    ok_bind, ↓reduceIte, Bool.false_eq_true, pure_eq_ok]

theorem EndsAt.expansion_of_nonneg (endsAt : arc.EndsAt lo hi)
    (loWithin : lo.natAbs ≤ halfTurnUnits) (hiWithin : hi.natAbs ≤ halfTurnUnits)
    (nonempty : ¬ (lo = halfTurnUnits ∧ hi = -halfTurnUnits))
    (marginAt : margin.position = .units count) (nonneg : 0 ≤ count)
    (marginWithin : count ≤ halfTurnUnits) :
    arc.expansion margin =
      if 2 * halfTurnUnits - 4 * epsilonUnits ≤ roundedUnits (lengthUnits lo hi + 2 * count) then
        .ok .saturated
      else arc.moveEnds margin >>= fun result => .ok (.moved result) := by
  have size := halfTurnUnits_eq_mul
  have limit := exactLimit_eq_mul
  have sign : (Number.integer 0).le (.real margin) = true := by
    rw [Number.le_of_position Number.integer_zero_position
      (Number.position_real marginAt)]
    exact decide_eq_true nonneg
  obtain ⟨length, lengthAt, grows⟩ :=
    endsAt.expansion_growing loWithin hiWithin nonempty sign
  obtain ⟨sumAt, sumWithin⟩ :=
    position_length_add_twice loWithin hiWithin lengthAt marginAt (by omega)
  have grownAt := Binary64.position_add sumAt endAllowance_position (by omega)
  rw [grows, Number.le_of_position Number.real_fullTurn_position
    (Number.position_real grownAt)]
  simp only [decide_eq_true_eq, fullTurn_le_rounded_iff]

/-- A margin fills the circle, an infinite one too, if the least length and twice the least margin
make up a full turn, but for the allowance. -/
theorem EndsAt.expansion_of_ge (endsAt : arc.EndsAt lo hi) (loWithin : lo.natAbs ≤ halfTurnUnits)
    (hiWithin : hi.natAbs ≤ halfTurnUnits)
    (nonempty : ¬ (lo = halfTurnUnits ∧ hi = -halfTurnUnits)) {least bound : Int}
    (measured : least ≤ lengthUnits lo hi)
    (beyond : (Position.units bound).le margin.position = true)
    (nonneg : 0 ≤ bound) (within : bound ≤ 2 * halfTurnUnits)
    (exact : roundedUnits (2 * bound) = 2 * bound) (leastWithin : least.natAbs ≤ 2 * halfTurnUnits)
    (reaches : 2 * halfTurnUnits - 4 * epsilonUnits ≤ least + 2 * bound) :
    arc.expansion margin = .ok .saturated := by
  have size := halfTurnUnits_eq_mul
  have limit := exactLimit_eq_mul
  have sign : (Number.integer 0).le (.real margin) = true := by
    rw [Number.le, Number.integer_zero_position]
    exact Position.le_trans (Position.units_le_units nonneg) beyond
  obtain ⟨length, lengthAt, grows⟩ :=
    endsAt.expansion_growing loWithin hiWithin nonempty sign
  have lengthFrom : (Position.units least).le length.position = true := by
    rw [lengthAt]
    exact Position.units_le_units measured
  have allowanceFrom : (Position.units (2 * epsilonUnits)).le endAllowance.position = true := by
    rw [endAllowance_position]
    exact Position.units_le_units (le_refl _)
  have twiceFrom := Position.le_plus beyond beyond (by omega)
  rw [← two_mul, exact, ← Binary64.position_twice_eq_plus] at twiceFrom
  have sumFrom := Position.le_plus lengthFrom twiceFrom (by omega)
  have testExact := four_epsilon_isGrain.rounded_of_dvd
    (Int.dvd_sub four_dvd_fullTurn (Int.dvd_refl (4 * epsilonUnits))) (by omega)
  have testedFrom : (Position.units (2 * halfTurnUnits - 4 * epsilonUnits)).le
      (length.position.plus margin.twice.position) = true :=
    Position.le_trans (Position.units_le_units (le_roundedUnits_of_le testExact reaches)) sumFrom
  have grownFrom := Position.le_plus testedFrom allowanceFrom (by omega)
  rw [show (2 * halfTurnUnits - 4 * epsilonUnits + 2 * epsilonUnits : Int) =
    2 * halfTurnUnits - 2 * epsilonUnits by ring, roundedUnits_before_fullTurn] at grownFrom
  rw [grows, if_pos]
  rw [Number.le, Number.real_fullTurn_position, Number.position, Binary64.position_add_eq_plus,
    Binary64.position_add_eq_plus]
  exact grownFrom

theorem EndsAt.expansion_of_ge_halfTurn (endsAt : arc.EndsAt lo hi)
    (loWithin : lo.natAbs ≤ halfTurnUnits) (hiWithin : hi.natAbs ≤ halfTurnUnits)
    (nonempty : ¬ (lo = halfTurnUnits ∧ hi = -halfTurnUnits)) (measured : 0 ≤ lengthUnits lo hi)
    (beyond : (Position.units halfTurnUnits).le margin.position = true) :
    arc.expansion margin = .ok .saturated :=
  endsAt.expansion_of_ge loWithin hiWithin nonempty measured beyond (by omega) (by omega)
    roundedUnits_fullTurn (by omega) (by omega)

theorem EndsAt.expansion_of_ge_fullTurn (endsAt : arc.EndsAt lo hi)
    (loWithin : lo.natAbs ≤ halfTurnUnits) (hiWithin : hi.natAbs ≤ halfTurnUnits)
    (nonempty : ¬ (lo = halfTurnUnits ∧ hi = -halfTurnUnits))
    (beyond : (Position.units (2 * halfTurnUnits)).le margin.position = true) :
    arc.expansion margin = .ok .saturated := by
  have size := halfTurnUnits_eq_mul
  have one := unitsPerOne_eq_mul
  have twoTurns : ((2 : Int) * (2 * halfTurnUnits)).natAbs = 2 * fullTurnUnits := by
    unfold fullTurnUnits
    omega
  have exact := roundedUnits_of_representable (twoTurns ▸ representable_twoTurns)
  exact endsAt.expansion_of_ge loWithin hiWithin nonempty neg_unitsPerOne_le_lengthUnits beyond
    (by omega) (le_refl _) exact (by omega) (by omega)

theorem EndsAt.expansion_of_neg (endsAt : arc.EndsAt lo hi)
    (loWithin : lo.natAbs ≤ halfTurnUnits) (hiWithin : hi.natAbs ≤ halfTurnUnits)
    (notFull : ¬ (lo = -halfTurnUnits ∧ hi = halfTurnUnits))
    (marginAt : margin.position = .units count) (negative : count < 0)
    (marginWithin : -halfTurnUnits ≤ count) :
    arc.expansion margin =
      if roundedUnits (lengthUnits lo hi + 2 * count) ≤ 2 * epsilonUnits then .ok .collapsed
      else arc.moveEnds margin >>= fun result => .ok (.moved result) := by
  have size := halfTurnUnits_eq_mul
  have limit := exactLimit_eq_mul
  have sign : (Number.integer 0).le (.real margin) = false := by
    rw [Number.le_of_position Number.integer_zero_position
      (Number.position_real marginAt)]
    exact decide_eq_false (by omega)
  obtain ⟨length, lengthAt, shrinks⟩ :=
    endsAt.expansion_shrinking loWithin hiWithin notFull sign
  obtain ⟨sumAt, sumWithin⟩ :=
    position_length_add_twice loWithin hiWithin lengthAt marginAt (by omega)
  have shrunkAt := Binary64.position_add sumAt (Binary64.position_neg endAllowance_position)
    (by omega)
  have nonpos : roundedUnits (roundedUnits (lengthUnits lo hi + 2 * count) + -(2 * epsilonUnits)) ≤
      0 ↔ roundedUnits (lengthUnits lo hi + 2 * count) ≤ 2 * epsilonUnits := by
    rw [roundedUnits_nonpos_iff]
    omega
  rw [shrinks, Binary64.sub, Number.le_of_position (Number.position_real shrunkAt)
    Number.integer_zero_position]
  simp only [decide_eq_true_eq, nonpos]

theorem EndsAt.expansion_of_le_neg_halfTurn (endsAt : arc.EndsAt lo hi)
    (loWithin : lo.natAbs ≤ halfTurnUnits) (hiWithin : hi.natAbs ≤ halfTurnUnits)
    (notFull : ¬ (lo = -halfTurnUnits ∧ hi = halfTurnUnits))
    (beyond : margin.position.le (.units (-halfTurnUnits)) = true) :
    arc.expansion margin = .ok .collapsed := by
  have limit := halfTurnUnits_le_exactLimit
  have bound := natAbs_lengthUnits_le loWithin hiWithin
  have positive := halfTurnUnits_pos
  have sign : (Number.integer 0).le (.real margin) = false := by
    rw [← Bool.not_eq_true]
    intro nonneg
    rw [Number.le, Number.integer_zero_position] at nonneg
    have impossible := Position.le_trans nonneg beyond
    rw [Position.le_units, decide_eq_true_eq] at impossible
    omega
  obtain ⟨length, lengthAt, shrinks⟩ :=
    endsAt.expansion_shrinking loWithin hiWithin notFull sign
  have lengthTo : length.position.le (.units (2 * halfTurnUnits)) = true := by
    rw [lengthAt]
    exact Position.units_le_units (by omega)
  have allowanceTo : endAllowance.neg.position.le (.units 0) = true := by
    rw [Binary64.position_neg endAllowance_position]
    exact Position.units_le_units (by omega)
  have twiceTo := Position.plus_le beyond beyond (by omega)
  rw [← two_mul, mul_neg, roundedUnits_neg, roundedUnits_fullTurn,
    ← Binary64.position_twice_eq_plus] at twiceTo
  have sumTo := Position.plus_le lengthTo twiceTo (by omega)
  rw [add_neg_cancel, roundedUnits_zero] at sumTo
  have shrunkTo := Position.plus_le sumTo allowanceTo (by omega)
  rw [add_zero, roundedUnits_zero] at shrunkTo
  rw [shrinks, if_pos]
  rw [Number.le, Number.integer_zero_position, Number.position, Binary64.sub,
    Binary64.position_add_eq_plus, Binary64.position_add_eq_plus]
  exact shrunkTo

end Arc

end CircularArc
