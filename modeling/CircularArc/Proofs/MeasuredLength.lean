import CircularArc.Proofs.Growing
import CircularArc.Proofs.Shrinking
import CircularArc.Proofs.Totality

/-!
# What the measured length tells

The measured length is nearly the exact one. It is negative for the empty arc, and for one arc more:
the shortest one from half a turn on. Apart from that one, an arc is measured no shorter than what it
contains, and no arc becomes shorter by growing.
-/

set_option autoImplicit false

namespace CircularArc

variable {lo hi otherLo otherHi count : Int}

/-!
## The sign of a length
-/

theorem lengthUnits_neg_iff (counts : ValidCounts lo hi) :
    lengthUnits lo hi < 0 ↔ (lo = halfTurnUnits ∧ hi = -halfTurnUnits) ∨
      (lo = halfTurnUnits ∧ hi = 2 * epsilonUnits - halfTurnUnits) := by
  have one := unitsPerOne_pos
  constructor
  · intro negative
    by_contra other
    rw [not_or] at other
    have measured := ((counts.lengthUnits_near other.1).2 other.2).1
    omega
  · rintro (⟨rfl, rfl⟩ | ⟨rfl, rfl⟩)
    · rw [lengthUnits_empty]
      omega
    · rw [lengthUnits_shortest]
      omega

theorem lengthUnits_eq_of_neg (negative : lengthUnits lo hi < 0) :
    lengthUnits lo hi = -Binary64.unitsPerOne := by
  unfold lengthUnits at negative ⊢
  split at negative
  · have nonneg := roundedUnits_nonneg (show 0 ≤ hi - lo by omega)
    omega
  · rw [if_neg ‹_›]
    split at negative
    · omega
    · rw [if_neg ‹_›]

namespace Arc

variable {arc other : Arc}

theorem minusOne_position : (Number.integer (-1)).position = .units (-Binary64.unitsPerOne) := by
  rw [Number.position, neg_one_mul]

/-- A length is negative, and then it is minus one, for the empty arc and the shortest arc from half
a turn on only. -/
theorem Valid.length_neg_iff (valid : arc.Valid) :
    ∃ length, arc.length = .ok length ∧
      (length.lt (.integer 0) = true ↔ arc.isEmpty = true ∨ arc.IsShortestCrossing) ∧
      (length.lt (.integer 0) = true → length.same (.integer (-1)) = true) ∧
      (¬ (arc.isEmpty = true ∨ arc.IsShortestCrossing) →
        (Number.integer 0).le length = true) := by
  obtain ⟨lo, hi, endsAt, counts⟩ := valid.exists_endsAt
  obtain ⟨length, lengthIs, lengthAt⟩ := endsAt.length counts.within.1 counts.within.2
  have zeroAt := Number.integer_zero_position
  have sign := lengthUnits_neg_iff counts
  refine ⟨length, lengthIs, ?_, fun negative => ?_, fun positive => ?_⟩
  · rw [Number.lt_of_position lengthAt zeroAt, decide_eq_true_eq, endsAt.isEmpty_iff,
      endsAt.isShortestCrossing_iff]
    exact sign
  · rw [Number.lt_of_position lengthAt zeroAt, decide_eq_true_eq] at negative
    rw [Number.same_of_position lengthAt minusOne_position, decide_eq_true_eq]
    exact lengthUnits_eq_of_neg negative
  · rw [endsAt.isEmpty_iff, endsAt.isShortestCrossing_iff, ← sign, not_lt] at positive
    rw [Number.le_of_position zeroAt lengthAt, decide_eq_true_eq]
    exact positive

theorem Valid.length_neg_iff_of_lowerHalf :
    lowerHalf.Valid ∧ ∃ length, lowerHalf.length = .ok length ∧
      (Number.integer 0).le length = true := by
  have endsAt := lowerHalf_endsAt
  have size := halfTurnUnits_eq_mul
  have positive := epsilonUnits_pos
  have ordinary : ¬ (lowerHalf.isEmpty = true ∨ lowerHalf.IsShortestCrossing) := by
    rw [endsAt.isEmpty_iff, endsAt.isShortestCrossing_iff]
    omega
  obtain ⟨length, lengthIs, -, -, nonneg⟩ := lowerHalf_valid.length_neg_iff
  exact ⟨lowerHalf_valid, length, lengthIs, nonneg ordinary⟩

/-- The shortest arc from half a turn on is not empty, but it is measured as minus one. -/
theorem shortestCrossing_is_measured_as_empty :
    shortestCrossing.Valid ∧ shortestCrossing.isEmpty = false ∧
      ∃ length, shortestCrossing.length = .ok length ∧
        length.same (.integer (-1)) = true ∧ length.lt (.integer 0) = true := by
  have endsAt := shortestCrossing_endsAt
  have one := unitsPerOne_pos
  have positive := epsilonUnits_pos
  have ⟨loWithin, hiWithin⟩ := endsAt.within shortestCrossing_valid
  obtain ⟨length, lengthIs, lengthAt⟩ := endsAt.length loWithin hiWithin
  rw [lengthUnits_shortest] at lengthAt
  refine ⟨shortestCrossing_valid, ?_, length, lengthIs, ?_, ?_⟩
  · rw [← Bool.not_eq_true, endsAt.isEmpty_iff]
    omega
  · rw [Number.same_of_position lengthAt minusOne_position, decide_eq_true_eq]
  · rw [Number.lt_of_position lengthAt Number.integer_zero_position, decide_eq_true_eq]
    omega

/-- A length that is not minus one is at most a full turn, and off by at most `1 / 2 ^ 50`. -/
theorem Valid.length_is_accurate (valid : arc.Valid) :
    ∃ length, arc.length = .ok length ∧
      (length.same (.integer (-1)) = false →
        (Number.integer 0).le length = true ∧ length.le fullTurn = true ∧
          |(Value.number length).exactValue - arc.exactLength| ≤ 1 / 2 ^ 50) := by
  obtain ⟨lo, hi, endsAt, counts⟩ := valid.exists_endsAt
  have ⟨loWithin, hiWithin⟩ := counts.within
  obtain ⟨length, lengthIs, lengthAt⟩ := endsAt.length loWithin hiWithin
  refine ⟨length, lengthIs, fun measured => ?_⟩
  rw [Number.same_of_position lengthAt minusOne_position, decide_eq_false_iff_not] at measured
  have nonneg := mt lengthUnits_eq_of_neg measured
  have ordinary := mt (lengthUnits_neg_iff counts).mpr nonneg
  rw [not_or] at ordinary
  have bound := natAbs_lengthUnits_le loWithin hiWithin
  have near := counts.lengthUnits_near ordinary.1
  have shorter := (near.2 ordinary.2).2
  refine ⟨?_, ?_, ?_⟩
  · rw [Number.le_of_position Number.integer_zero_position lengthAt, decide_eq_true_eq]
    omega
  · rw [Number.le_of_position lengthAt Number.real_fullTurn_position, decide_eq_true_eq]
    omega
  · rw [Value.exactValue_of_position
        (show (Value.number length).position = .units (lengthUnits lo hi) from lengthAt),
      endsAt.exactLength, ← unitsValue_four_epsilon, abs_le, ← unitsValue_sub, ← unitsValue_neg, unitsValue_le_iff,
      unitsValue_le_iff]
    have positive := epsilonUnits_pos
    omega

theorem Valid.length_is_accurate_of_lowerHalf :
    lowerHalf.Valid ∧ ∃ length, lowerHalf.length = .ok length ∧
      length.same (.integer (-1)) = false ∧ (Number.integer 0).le length = true ∧
      length.le fullTurn = true ∧
      |(Value.number length).exactValue - lowerHalf.exactLength| ≤ 1 / 2 ^ 50 := by
  have ⟨loWithin, hiWithin⟩ := lowerHalf_endsAt.within lowerHalf_valid
  obtain ⟨length, lengthIs, lengthAt⟩ := lowerHalf_endsAt.length loWithin hiWithin
  obtain ⟨_, found, accurate⟩ := lowerHalf_valid.length_is_accurate
  cases lengthIs.symm.trans found
  have size := halfTurnUnits_eq_mul
  have positive := epsilonUnits_pos
  have measured : length.same (.integer (-1)) = false := by
    have one := unitsPerOne_pos
    have sign := lengthUnits_neg_iff (.inverted lowerHalf_counts)
    rw [Number.same_of_position lengthAt minusOne_position, decide_eq_false_iff_not]
    omega
  exact ⟨lowerHalf_valid, length, lengthIs, measured, accurate measured⟩

end Arc

/-!
## Lengths of arcs within each other
-/

/-- What an arc contains is measured no longer, unless the arc is taken for the empty one. -/
theorem ValidCounts.lengthUnits_le_of_covers (counts : ValidCounts lo hi)
    (otherCounts : ValidCounts otherLo otherHi) (covers : CoversCounts lo hi otherLo otherHi)
    (longer : ¬ (lo = halfTurnUnits ∧ hi = 2 * epsilonUnits - halfTurnUnits)) :
    lengthUnits otherLo otherHi ≤ lengthUnits lo hi := by
  have ⟨otherLoWithin, otherHiWithin⟩ := otherCounts.within
  have turn := halfTurnUnits_pos
  unfold CoversCounts at covers
  cases counts with
  | empty loAt hiAt =>
    subst loAt hiAt
    rw [if_pos (by omega)] at covers
    split at covers
    · obtain ⟨rfl, rfl⟩ : otherLo = halfTurnUnits ∧ otherHi = -halfTurnUnits := by omega
      exact le_refl _
    · exact absurd ⟨rfl, rfl⟩ covers.2
  | full loAt hiAt =>
    have bound := natAbs_lengthUnits_le otherLoWithin otherHiWithin
    rw [loAt, hiAt, lengthUnits_full]
    omega
  | normal counts =>
    have ⟨above, order, below, _, _⟩ := counts
    rw [if_neg (by omega)] at covers
    split at covers
    · rcases covers with whole | ⟨rfl, rfl⟩
      · omega
      · rw [lengthUnits_empty]
        exact neg_unitsPerOne_le_lengthUnits
    · rw [lengthUnits_of_le (by omega), lengthUnits_of_le order]
      exact roundedUnits_mono (by omega)
  | inverted counts =>
    have ⟨above, order, below, _, hiExact⟩ := counts
    have hiGap := neg_halfTurn_add_le_of_lt hiExact above
    rw [if_pos order] at covers
    split at covers
    · exact counts.lengthUnits_le_of_lt covers.1 ‹_› covers.2
    · refine counts.lengthUnits_le_of_le (by omega) ?_ (counts.completedUnits_pos longer)
      cases otherCounts with
      | empty otherLoAt otherHiAt | full otherLoAt otherHiAt => omega
      | normal otherCounts =>
        have loGap := neg_halfTurn_add_le_of_lt otherCounts.lo_exact otherCounts.above
        omega
      | inverted otherCounts =>
        have otherOrder := otherCounts.order
        omega

section Moved

variable (nonneg : 0 ≤ count) (within : count ≤ halfTurnUnits)
include nonneg within

theorem movedHi_halfTurn (stays : movedLo halfTurnUnits count = halfTurnUnits) :
    movedHi halfTurnUnits halfTurnUnits count = halfTurnUnits := by
  have loFrom := roundedUnits_nonneg (show 0 ≤ halfTurnUnits - count by omega)
  have loTo := roundedUnits_le_of_le roundedUnits_halfTurn (show halfTurnUnits - count ≤ _ by omega)
  have fine := (turnRounding (halfTurnUnits - count) (by omega)).fine
  have positive := halfTurnUnits_pos
  rw [movedLo, canonicalUnits_of_within (by omega) loTo] at stays
  have hiFrom :=
    le_roundedUnits_of_le roundedUnits_halfTurn (show _ ≤ halfTurnUnits + count by omega)
  have hiTo := roundedUnits_mono (show halfTurnUnits + count ≤ halfTurnUnits + epsilonUnits by omega)
  rw [roundedUnits_beyond_halfTurn] at hiTo
  rw [movedHi, if_neg (by omega), canonicalUnits_of_within (by omega) hiTo]
  exact le_antisymm hiTo hiFrom

theorem movedHi_beyond_halfTurn
    (moves : movedLo (2 * epsilonUnits - halfTurnUnits) count = halfTurnUnits) :
    2 * epsilonUnits - halfTurnUnits <
      movedHi (2 * epsilonUnits - halfTurnUnits) (2 * epsilonUnits - halfTurnUnits) count := by
  have size := halfTurnUnits_eq_mul
  have positive := epsilonUnits_pos
  have least : epsilonUnits ≤ count := by
    obtain ⟨loTo, -, fine, -, -⟩ :=
      turnRounding (2 * epsilonUnits - halfTurnUnits - count) (by omega)
    unfold movedLo canonicalUnits at moves
    split at moves
    · omega
    · split at moves <;> omega
  have opposite : (3 * epsilonUnits - halfTurnUnits : Int) = -(halfTurnUnits - 3 * epsilonUnits) := by
    ring
  have hiFrom := roundedUnits_mono (show 3 * epsilonUnits - halfTurnUnits ≤
    2 * epsilonUnits - halfTurnUnits + count by omega)
  have hiTo := roundedUnits_le_of_le roundedUnits_halfTurn
    (show 2 * epsilonUnits - halfTurnUnits + count ≤ _ by omega)
  rw [opposite, roundedUnits_neg, roundedUnits_before_halfTurn] at hiFrom
  rw [movedHi, if_neg (by omega), canonicalUnits_of_within (by omega) hiTo]
  omega

theorem ValidCounts.moved_longer (counts : ValidCounts lo hi)
    (covers : CoversCounts (movedLo lo count) (movedHi lo hi count) lo hi)
    (nonempty : ¬ (lo = halfTurnUnits ∧ hi = -halfTurnUnits))
    (longer : ¬ (lo = halfTurnUnits ∧ hi = 2 * epsilonUnits - halfTurnUnits)) :
    ¬ (movedLo lo count = halfTurnUnits ∧
      movedHi lo hi count = 2 * epsilonUnits - halfTurnUnits) := by
  rintro ⟨loMoves, hiMoves⟩
  have size := halfTurnUnits_eq_mul
  have positive := epsilonUnits_pos
  rw [loMoves, hiMoves, CoversCounts, if_pos (by omega)] at covers
  cases counts with
  | empty loAt hiAt => exact nonempty ⟨loAt, hiAt⟩
  | full loAt hiAt =>
    rw [if_neg (by omega)] at covers
    omega
  | normal counts =>
    obtain ⟨above, order, below, loExact, -⟩ := counts
    have loGap := neg_halfTurn_add_le_of_lt loExact above
    rw [if_neg (by omega)] at covers
    -- Only a single point at either end of the shortest arc could grow into it.
    rcases covers.1 with atHalfTurn | beyond
    · obtain ⟨rfl, rfl⟩ : lo = halfTurnUnits ∧ hi = halfTurnUnits := by omega
      have stays := movedHi_halfTurn nonneg within loMoves
      omega
    · obtain ⟨rfl, rfl⟩ : lo = 2 * epsilonUnits - halfTurnUnits ∧
          hi = 2 * epsilonUnits - halfTurnUnits := by omega
      have moves := movedHi_beyond_halfTurn nonneg within loMoves
      omega
  | inverted counts =>
    obtain ⟨above, order, below, -, hiExact⟩ := counts
    have hiGap := neg_halfTurn_add_le_of_lt hiExact above
    rw [if_pos order] at covers
    omega

end Moved

namespace Arc

variable {arc : Arc} {margin : Binary64}

/-- No margin that is not negative makes an arc measured shorter. -/
theorem Valid.expanded_is_measured_no_shorter (valid : arc.Valid)
    (nonneg : (Number.integer 0).le margin = true) :
    ∃ grown length grownLength, arc.expanded margin = .ok grown ∧ arc.length = .ok length ∧
      grown.length = .ok grownLength ∧ length.le grownLength = true := by
  obtain ⟨lo, hi, endsAt, counts⟩ := valid.exists_endsAt
  by_cases least : lengthUnits lo hi < 0
  · have defined : margin ≠ .nan := by
      rintro rfl
      cases nonneg
    obtain ⟨grown, grows⟩ := valid.expanded_total defined
    have grownValid := valid.expanded grows
    obtain ⟨grownLo, grownHi, grownAt, -⟩ := grownValid.exists_endsAt
    have shorter : lengthUnits lo hi ≤ lengthUnits grownLo grownHi := by
      rw [lengthUnits_eq_of_neg least]
      exact neg_unitsPerOne_le_lengthUnits
    obtain ⟨length, grownLength, measured⟩ := endsAt.length_le valid grownAt grownValid shorter
    exact ⟨grown, length, grownLength, grows, measured⟩
  have ordinary := mt (lengthUnits_neg_iff counts).mpr least
  rw [not_or] at ordinary
  obtain ⟨nonempty, longer⟩ := ordinary
  have ⟨loWithin, hiWithin⟩ := counts.within
  rcases endsAt.expanded_covers valid counts nonempty longer nonneg with
    fills | ⟨count, moved, marginAt, from0, room, moves, movedValid, movedAt, covers⟩
  · have bound := natAbs_lengthUnits_le loWithin hiWithin
    have shorter : lengthUnits lo hi ≤ lengthUnits (-halfTurnUnits) halfTurnUnits := by
      rw [lengthUnits_full]
      omega
    obtain ⟨length, fullLength, measured⟩ := endsAt.length_le valid full_endsAt full_valid shorter
    exact ⟨full, length, fullLength, fills, measured⟩
  · have spanFrom := counts.spanUnits_nonneg
    have movedLonger := counts.moved_longer from0 (by omega) covers nonempty longer
    have shorter := (movedAt.counts movedValid).lengthUnits_le_of_covers counts covers movedLonger
    obtain ⟨length, movedLength, measured⟩ := endsAt.length_le valid movedAt movedValid shorter
    exact ⟨moved, length, movedLength, moves, measured⟩

theorem Valid.expanded_is_measured_no_shorter_of_lowerHalf :
    lowerHalf.Valid ∧ (Number.integer 0).le (.real endAllowance) = true ∧
      ∃ grown length grownLength, lowerHalf.expanded endAllowance = .ok grown ∧
        lowerHalf.length = .ok length ∧ grown.length = .ok grownLength ∧
        length.le grownLength = true := by
  have nonneg : (Number.integer 0).le (.real endAllowance) = true := by
    rw [Number.le_of_position Number.integer_zero_position
      (Number.position_real endAllowance_position)]
    exact decide_eq_true (by omega)
  exact ⟨lowerHalf_valid, nonneg, lowerHalf_valid.expanded_is_measured_no_shorter nonneg⟩

end Arc

end CircularArc
