import CircularArc.Proofs.Shrinking

/-!
# When a margin empties an arc

A negative margin that takes the whole of an arc leaves the empty arc, whatever the rounding.
Conversely, if the empty arc is left, the margin takes all but a rest of at most `1 / 2 ^ 49`. The ends
may also meet at half a turn after the test for the empty arc let them pass.
-/

set_option autoImplicit false

namespace CircularArc

variable {lo hi count : Int}

/-- Where the margin takes all of the exact length, hardly any of the measured one is left. -/
theorem ValidCounts.measured_of_taken (counts : ValidCounts lo hi)
    (exact : roundedUnits (2 * count) = 2 * count) (within : -halfTurnUnits ≤ count)
    (taken : spanUnits lo hi + 2 * count ≤ 0) :
    roundedUnits (lengthUnits lo hi + 2 * count) ≤ 2 * epsilonUnits := by
  have ⟨loWithin, hiWithin⟩ := counts.within
  have size := halfTurnUnits_eq_mul
  have doubled : roundedUnits (-(2 * count)) = -(2 * count) := by
    rw [roundedUnits_neg, exact]
  have left : lengthUnits lo hi + 2 * count ≤ 2 * epsilonUnits := by
    rcases le_or_gt lo hi with order | order
    · rw [spanUnits_of_le order] at taken
      have shorter := roundedUnits_mono (show hi - lo ≤ -(2 * count) by omega)
      rw [lengthUnits_of_le order]
      omega
    · rw [spanUnits_of_lt order] at taken
      have shorter :=
        completedUnits_le_of_taken loWithin hiWithin doubled (by omega) order (by omega)
      have one := unitsPerOne_pos
      rw [lengthUnits_of_lt order]
      split <;> omega
  have rounded := roundedUnits_mono left
  rwa [two_epsilon_isGrain.rounded_of_dvd (Int.dvd_refl (2 * epsilonUnits)) (by omega)] at rounded

section Converse

variable (counts : ValidCounts lo hi) (negative : count < 0) (within : -halfTurnUnits ≤ count)
include counts negative within

theorem ValidCounts.taken_of_measured (nonempty : ¬ (lo = halfTurnUnits ∧ hi = -halfTurnUnits))
    (collapses : roundedUnits (lengthUnits lo hi + 2 * count) ≤ 2 * epsilonUnits) :
    spanUnits lo hi + 2 * count ≤ 8 * epsilonUnits := by
  have ⟨loWithin, hiWithin⟩ := counts.within
  have size := halfTurnUnits_eq_mul
  have positive := epsilonUnits_pos
  by_cases shortest : lo = halfTurnUnits ∧ hi = 2 * epsilonUnits - halfTurnUnits
  · rw [spanUnits_of_lt (by omega)]
    omega
  · have bound := natAbs_lengthUnits_le loWithin hiWithin
    obtain ⟨nonneg, near⟩ := (counts.lengthUnits_near nonempty).2 shortest
    have rounding := (turnRounding (lengthUnits lo hi + 2 * count) (by omega)).ge
    omega

theorem ValidCounts.taken_of_moved (loMoves : movedLo lo count = halfTurnUnits)
    (hiMoves : movedHi lo hi count = -halfTurnUnits) :
    spanUnits lo hi + 2 * count ≤ 8 * epsilonUnits := by
  have ⟨loWithin, hiWithin⟩ := counts.within
  have positive := halfTurnUnits_pos
  have loRounding := turnRounding (lo - count) (by omega)
  have hiRounding := turnRounding (hi + count) (by omega)
  have live := neg_halfTurn_lt_canonicalUnits hiRounding.within
  unfold movedHi at hiMoves
  split at hiMoves
  · have loFine := loRounding.fine (by omega)
    have hiFine := hiRounding.fine (by omega)
    unfold spanUnits
    split <;> omega
  · omega

end Converse

namespace Arc

variable {arc : Arc} {margin : Binary64}

/-- Twice a negative margin takes the exact length of the arc, but for a rest. -/
def IsTaken (arc : Arc) (margin : Binary64) (rest : ℚ) : Prop :=
  margin = .infinite true ∨
    ∃ count, margin.position = .units count ∧ arc.exactLength + 2 * unitsValue count ≤ rest

theorem EndsAt.isTaken_iff {rest : Int} (endsAt : arc.EndsAt lo hi)
    (marginAt : margin.position = .units count) :
    arc.IsTaken margin (unitsValue rest) ↔ spanUnits lo hi + 2 * count ≤ rest := by
  unfold IsTaken
  rw [marginAt, endsAt.exactLength]
  constructor
  · rintro (rfl | ⟨_, found, taken⟩)
    · cases marginAt
    · cases found
      rwa [← unitsValue_twice, ← unitsValue_add, unitsValue_le_iff] at taken
  · intro taken
    refine .inr ⟨count, rfl, ?_⟩
    rwa [← unitsValue_twice, ← unitsValue_add, unitsValue_le_iff]

theorem EndsAt.isTaken_of_le_neg_halfTurn {rest : Int} (endsAt : arc.EndsAt lo hi)
    (counts : ValidCounts lo hi) (nonneg : 0 ≤ rest)
    (far : margin.position.le (.units (-halfTurnUnits)) = true) :
    arc.IsTaken margin (unitsValue rest) := by
  have ⟨loWithin, hiWithin⟩ := counts.within
  cases margin with
  | nan => cases far
  | infinite sign =>
    cases sign with
    | true => exact .inl rfl
    | false => cases far
  | finite sign units aligned =>
    rw [Binary64.position, Position.le_units, decide_eq_true_eq] at far
    rw [endsAt.isTaken_iff (show (Binary64.finite sign units aligned).position = _ from rfl)]
    unfold spanUnits
    split <;> omega

/-- A negative margin empties an arc if its double takes the exact length, and only if it takes all but
`1 / 2 ^ 49` of it. -/
theorem Valid.expanded_empties (valid : arc.Valid) (nonempty : arc.isEmpty = false)
    (notFull : arc.isFull = false) (negative : (Number.real margin).lt (.integer 0) = true) :
    ∃ shrunk, arc.expanded margin = .ok shrunk ∧
      (arc.IsTaken margin 0 → shrunk.isEmpty = true) ∧
      (shrunk.isEmpty = true → arc.IsTaken margin (1 / 2 ^ 49)) := by
  obtain ⟨lo, hi, endsAt, counts⟩ := valid.exists_endsAt
  have ⟨loWithin, hiWithin⟩ := counts.within
  rw [← Bool.not_eq_true, endsAt.isEmpty_iff] at nonempty
  rw [← Bool.not_eq_true, endsAt.isFull_iff] at notFull
  rw [← unitsValue_eight_epsilon]
  rcases Binary64.neg_margin_cases negative with far | ⟨count, marginAt, below, near⟩
  · exact ⟨empty, expanded_of_expansion
      (endsAt.expansion_of_le_neg_halfTurn loWithin hiWithin notFull far), fun _ => empty_isEmpty,
      fun _ => endsAt.isTaken_of_le_neg_halfTurn counts (by omega) far⟩
  have tested := endsAt.expansion_of_neg loWithin hiWithin notFull marginAt below near
  rw [← unitsValue_zero, endsAt.isTaken_iff marginAt, endsAt.isTaken_iff marginAt]
  split at tested
  · exact ⟨empty, expanded_of_expansion tested, fun _ => empty_isEmpty,
      fun _ => counts.taken_of_measured below near nonempty ‹_›⟩
  · obtain ⟨moved, moves, movedValid, movedAt⟩ :=
      endsAt.expanded_of_moves loWithin hiWithin marginAt (by omega) tested
    refine ⟨moved, moves, fun taken => ?_, fun vanishes => ?_⟩
    · have limit := halfTurnUnits_le_exactLimit
      have exact := roundedUnits_twice (Binary64.roundedUnits_of_position marginAt) (by omega)
      exact absurd (counts.measured_of_taken exact near taken) ‹_›
    · obtain ⟨loMoves, hiMoves⟩ := movedAt.isEmpty_iff.mp vanishes
      exact counts.taken_of_moved below near loMoves hiMoves

theorem Valid.expanded_empties_lowerHalf :
    lowerHalf.Valid ∧ lowerHalf.isEmpty = false ∧ lowerHalf.isFull = false ∧
      (Number.real minusHalfTurn).lt (.integer 0) = true ∧
      ∃ shrunk, lowerHalf.expanded minusHalfTurn = .ok shrunk ∧ shrunk.isEmpty = true := by
  have endsAt := lowerHalf_endsAt
  have positive := halfTurnUnits_pos
  have nonempty := lowerHalf_nonempty
  have notFull : lowerHalf.isFull = false := by
    rw [← Bool.not_eq_true, endsAt.isFull_iff]
    omega
  have negative : (Number.real minusHalfTurn).lt (.integer 0) = true := by
    rw [Number.lt_of_position Number.real_minusHalfTurn_position Number.integer_zero_position]
    exact decide_eq_true (by omega)
  have taken : lowerHalf.IsTaken minusHalfTurn 0 := by
    rw [← unitsValue_zero, endsAt.isTaken_iff minusHalfTurn_position,
      spanUnits_of_lt (by omega)]
    omega
  obtain ⟨shrunk, shrinks, empties, -⟩ :=
    lowerHalf_valid.expanded_empties nonempty notFull negative
  exact ⟨lowerHalf_valid, nonempty, notFull, negative, shrunk, shrinks, empties taken⟩

end Arc

end CircularArc
