import CircularArc.Proofs.Totality

/-!
# How accurate moved ends are

A margin that moves the ends brings neither further than a full turn, even where the measured length
is wrong. One rounding then moves the sum by at most `endAllowance`, and all that follows changes an end
by whole turns only.
-/

set_option autoImplicit false

namespace CircularArc

variable {lo hi count : Int}

/-!
## Counts up to whole turns
-/

theorem dvd_sub_canonicalUnits (count : Int) :
    (2 * halfTurnUnits : Int) ∣ count - canonicalUnits count := by
  unfold canonicalUnits
  split
  · exact ⟨1, by ring⟩
  · split
    · exact ⟨-1, by ring⟩
    · exact ⟨0, by ring⟩

theorem dvd_sub_movedHi (lo hi count : Int) :
    (2 * halfTurnUnits : Int) ∣ roundedUnits (hi + count) - movedHi lo hi count := by
  unfold movedHi
  split
  · rename_i opposite
    rw [opposite.1, sub_self]
    exact dvd_zero _
  · exact dvd_sub_canonicalUnits _

/-- Up to whole turns, a direction is at most `endAllowance` away from another one. -/
def IsNearDirection (reached target : ℚ) : Prop :=
  ∃ shift, |shift| ≤ 1 / 2 ^ 51 ∧ reached ≡ target + shift [PMOD 2 * halfCircle]

theorem isNearDirection_of_rounded {landed total : Int} (within : total.natAbs ≤ 2 * halfTurnUnits)
    (turns : (2 * halfTurnUnits : Int) ∣ roundedUnits total - landed) :
    IsNearDirection (unitsValue landed) (unitsValue total) := by
  obtain ⟨most, least, -⟩ := turnRounding total within
  refine ⟨unitsValue (roundedUnits total - total), ?_, ?_⟩
  · rw [abs_le, ← unitsValue_two_epsilon, ← unitsValue_neg, unitsValue_le_iff, unitsValue_le_iff]
    constructor <;> omega
  · rw [← unitsValue_add, add_sub_cancel]
    exact unitsValue_modEq turns

namespace Arc

variable {arc moved : Arc} {margin : Binary64}

theorem EndsAt.reach_of_moved (endsAt : arc.EndsAt lo hi) (counts : ValidCounts lo hi)
    (marginAt : margin.position = .units count)
    (moves : arc.expansion margin = .ok (.moved moved)) :
    (lo - count).natAbs ≤ 2 * halfTurnUnits ∧ (hi + count).natAbs ≤ 2 * halfTurnUnits := by
  have ⟨loWithin, hiWithin⟩ := counts.within
  have size := halfTurnUnits_eq_mul
  have sign : (Number.integer 0).le (.real margin) = decide (0 ≤ count) :=
    Number.le_of_position Number.integer_zero_position marginAt
  rcases lt_or_ge count 0 with negative | nonneg
  · rw [decide_eq_false (not_le.mpr negative)] at sign
    have notFull : ¬ (lo = -halfTurnUnits ∧ hi = halfTurnUnits) := fun whole => by
      cases (expansion_of_isFull (endsAt.isFull_iff.mpr whole) sign).symm.trans moves
    have near : -halfTurnUnits < count := by
      by_contra far
      have beyond : margin.position.le (.units (-halfTurnUnits)) = true := by
        rw [marginAt]
        exact Position.units_le_units (not_lt.mp far)
      cases (endsAt.expansion_of_le_neg_halfTurn loWithin hiWithin notFull beyond).symm.trans moves
    omega
  · rw [decide_eq_true nonneg] at sign
    have nonempty : ¬ (lo = halfTurnUnits ∧ hi = -halfTurnUnits) := fun vanishes => by
      cases (expansion_of_isEmpty (endsAt.isEmpty_iff.mpr vanishes) sign).symm.trans moves
    have beyond {bound : Int} (far : ¬ count < bound) :
        (Position.units bound).le margin.position = true := by
      rw [marginAt]
      exact Position.units_le_units (not_lt.mp far)
    by_cases shortest : lo = halfTurnUnits ∧ hi = 2 * epsilonUnits - halfTurnUnits
    · have near : count < 2 * halfTurnUnits := by
        by_contra far
        cases (endsAt.expansion_of_ge_fullTurn loWithin hiWithin nonempty (beyond far)).symm.trans
          moves
      omega
    · obtain ⟨measured, -⟩ := (counts.lengthUnits_near nonempty).2 shortest
      have near : count < halfTurnUnits := by
        by_contra far
        cases (endsAt.expansion_of_ge_halfTurn loWithin hiWithin nonempty measured
          (beyond far)).symm.trans moves
      omega

/-- Moved ends are near the exact ones. -/
theorem EndsAt.near_of_moved (endsAt : arc.EndsAt lo hi) (counts : ValidCounts lo hi)
    (marginAt : margin.position = .units count)
    (moves : arc.expansion margin = .ok (.moved moved)) :
    IsNearDirection moved.lo.exactValue (unitsValue (lo - count)) ∧
      IsNearDirection moved.hi.exactValue (unitsValue (hi + count)) := by
  have ⟨loWithin, hiWithin⟩ := counts.within
  obtain ⟨loNear, hiNear⟩ := endsAt.reach_of_moved counts marginAt moves
  obtain ⟨_, found, -, movedAt⟩ :=
    endsAt.moveEnds_of_within loWithin hiWithin marginAt loNear hiNear
  cases (moveEnds_of_expansion moves).symm.trans found
  rw [movedAt.lo_exact, movedAt.hi_exact]
  exact ⟨isNearDirection_of_rounded loNear (dvd_sub_canonicalUnits _),
    isNearDirection_of_rounded hiNear (dvd_sub_movedHi lo hi count)⟩

/-- A finite margin that neither leaves an arc unchanged nor fills the circle nor empties the arc
moves its ends, and both come to stand near where they do exactly, up to whole turns. -/
theorem Valid.expanded_is_accurate (valid : arc.Valid) (finite : margin.isFinite = true)
    (changed : arc.expansion margin ≠ .ok .unchanged)
    (unfilled : arc.expansion margin ≠ .ok .saturated)
    (kept : arc.expansion margin ≠ .ok .collapsed) :
    ∃ moved, arc.expanded margin = .ok moved ∧
      IsNearDirection moved.lo.exactValue
        (arc.lo.exactValue - (Value.number margin).exactValue) ∧
      IsNearDirection moved.hi.exactValue
        (arc.hi.exactValue + (Value.number margin).exactValue) := by
  obtain ⟨lo, hi, endsAt, counts⟩ := valid.exists_endsAt
  obtain ⟨count, marginAt⟩ := Binary64.exists_position_of_isFinite finite
  have defined : margin ≠ .nan := by
    rintro rfl
    cases marginAt
  have marginIs : (Value.number margin).exactValue = unitsValue count :=
    Value.exactValue_of_position marginAt
  obtain ⟨expansion, found⟩ := valid.expansion_total defined
  cases expansion with
  | unchanged => exact absurd found changed
  | saturated => exact absurd found unfilled
  | collapsed => exact absurd found kept
  | moved moved =>
    rw [endsAt.lo_exact, endsAt.hi_exact, marginIs, ← unitsValue_sub, ← unitsValue_add]
    exact ⟨moved, expanded_of_expansion found, endsAt.near_of_moved counts marginAt found⟩

theorem Valid.expanded_is_accurate_of_lowerHalf :
    lowerHalf.Valid ∧ endAllowance.isFinite = true ∧
      lowerHalf.expansion endAllowance ≠ .ok .unchanged ∧
      lowerHalf.expansion endAllowance ≠ .ok .saturated ∧
      lowerHalf.expansion endAllowance ≠ .ok .collapsed ∧
      ∃ moved, lowerHalf.expanded endAllowance = .ok moved ∧
        IsNearDirection moved.lo.exactValue
          (lowerHalf.lo.exactValue - (Value.number endAllowance).exactValue) ∧
        IsNearDirection moved.hi.exactValue
          (lowerHalf.hi.exactValue + (Value.number endAllowance).exactValue) := by
  have ⟨loWithin, hiWithin⟩ := lowerHalf_endsAt.within lowerHalf_valid
  have size := halfTurnUnits_eq_mul
  have positive := epsilonUnits_pos
  have nonempty : ¬ ((halfTurnUnits : Int) = halfTurnUnits ∧ (0 : Int) = -halfTurnUnits) := by omega
  have finite := Binary64.isFinite_of_position endAllowance_position
  obtain ⟨moved, moves, -⟩ :=
    lowerHalf_endsAt.moveEnds loWithin hiWithin endAllowance_position (by omega)
  have room : ¬ 2 * halfTurnUnits - 4 * epsilonUnits ≤
      roundedUnits (lengthUnits halfTurnUnits 0 + 2 * (2 * epsilonUnits)) := by
    obtain ⟨longest, measured⟩ := (ValidCounts.inverted lowerHalf_counts).lengthUnits_near nonempty
    have nonneg := (measured (by omega)).1
    rw [spanUnits_of_lt lowerHalf_counts.order] at longest
    have near := four_epsilon_isGrain.near_rounded
      (lengthUnits halfTurnUnits 0 + 2 * (2 * epsilonUnits)) (by omega)
    omega
  have found : lowerHalf.expansion endAllowance = .ok (.moved moved) := by
    rw [lowerHalf_endsAt.expansion_of_nonneg loWithin hiWithin nonempty endAllowance_position
      (by omega) (by omega), if_neg room, moves, ok_bind]
  have changed : lowerHalf.expansion endAllowance ≠ .ok .unchanged := fun same => by
    cases found.symm.trans same
  have unfilled : lowerHalf.expansion endAllowance ≠ .ok .saturated := fun same => by
    cases found.symm.trans same
  have kept : lowerHalf.expansion endAllowance ≠ .ok .collapsed := fun same => by
    cases found.symm.trans same
  exact ⟨lowerHalf_valid, finite, changed, unfilled, kept,
    lowerHalf_valid.expanded_is_accurate finite changed unfilled kept⟩

end Arc

end CircularArc
