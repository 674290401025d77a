import CircularArc.Proofs.Intersection

/-!
# Intersections of nested arcs

With the inner arc first, an intersection is the inner arc. With the outer arc first, the measured
lengths decide: the inner arc is found just if it is measured shorter, and what is found instead of
it is the outer arc, which then exceeds it by no more than the rounding of the two lengths.
-/

set_option autoImplicit false

namespace CircularArc

theorem Value.IsAngle.agrees_iff {left right : Value} (leftAngle : left.IsAngle)
    (rightAngle : right.IsAngle) :
    left.agrees right = true ↔ left.exactValue = right.exactValue := by
  obtain ⟨leftNumber, rfl⟩ := leftAngle.eq_number
  obtain ⟨rightNumber, rfl⟩ := rightAngle.eq_number
  obtain ⟨leftCount, leftAt, -⟩ := leftAngle
  obtain ⟨rightCount, rightAt, -⟩ := rightAngle
  rw [agrees_number, Number.agrees_iff, ← position_number, ← position_number, leftAt, rightAt,
    Position.units.injEq, exactValue_of_position leftAt, exactValue_of_position rightAt,
    unitsValue_inj]

namespace Arc

variable {arc other : Arc}

theorem Valid.same_iff (arcValid : arc.Valid) (otherValid : other.Valid) :
    arc.same other = true ↔ arc.lo.exactValue = other.lo.exactValue ∧
      arc.hi.exactValue = other.hi.exactValue := by
  rw [same, Bool.and_eq_true, arcValid.lo_isAngle.agrees_iff otherValid.lo_isAngle,
    arcValid.hi_isAngle.agrees_iff otherValid.hi_isAngle]

theorem Valid.same_iff_points (arcValid : arc.Valid) (otherValid : other.Valid) :
    arc.same other = true ↔ arc.points = other.points := by
  have ends := arcValid.exactEnds
  have otherEnds := otherValid.exactEnds
  have positive := halfCircle_pos
  rw [arcValid.same_iff otherValid]
  constructor
  · rintro ⟨loSame, hiSame⟩
    rw [points, points, loSame, hiSame]
  · intro samePoints
    obtain ⟨covers, covered⟩ := Set.Subset.antisymm_iff.mp samePoints
    rw [(otherValid.contains_decides arcValid).unique (otherValid.contains_ends arcValid)] at covers
    rw [(arcValid.contains_decides otherValid).unique (arcValid.contains_ends otherValid)] at covered
    grind

theorem Valid.full_not_shorter (valid : arc.Valid) (otherValid : other.Valid)
    {length otherLength : Number} (whole : other.isFull = true) (lengthIs : arc.length = .ok length)
    (otherLengthIs : other.length = .ok otherLength) : ¬ otherLength.lt length = true := by
  obtain ⟨lo, hi, endsAt, counts⟩ := valid.exists_endsAt
  obtain ⟨otherLo, otherHi, otherAt, -⟩ := otherValid.exists_endsAt
  obtain ⟨rfl, rfl⟩ := otherAt.isFull_iff.mp whole
  rw [endsAt.length_lt valid otherAt otherValid lengthIs otherLengthIs, not_lt]
  have bound := natAbs_lengthUnits_le counts.within.1 counts.within.2
  rw [lengthUnits_full]
  omega

/-- An arc that spans the ends of an arc around it is that arc, or the arc around it is the circle. -/
theorem Valid.same_or_full_of_spans (arcValid : arc.Valid) (otherValid : other.Valid)
    (inside : other.points ⊆ arc.points) (both : other.SpansBothEnds arc) :
    arc.same other = true ∨ arc.isFull = true := by
  have ends := arcValid.exactEnds
  have otherEnds := otherValid.exactEnds
  have positive := halfCircle_pos
  rw [(arcValid.contains_decides otherValid).unique (arcValid.contains_ends otherValid)] at inside
  rw [arcValid.same_iff otherValid, arcValid.isFull_iff]
  obtain ⟨loHeld, hiHeld⟩ := both
  unfold Spans at loHeld hiHeld
  grind

theorem Valid.spansBothEnds_of_subset (arcValid : arc.Valid) (otherValid : other.Valid)
    (inside : other.points ⊆ arc.points) (nonempty : other.points ≠ ∅) :
    arc.SpansBothEnds other := by
  have ends := arcValid.exactEnds
  have otherEnds := otherValid.exactEnds
  have positive := halfCircle_pos
  rw [Ne, otherValid.points_eq_empty_iff] at nonempty
  rw [(arcValid.contains_decides otherValid).unique (arcValid.contains_ends otherValid)] at inside
  unfold SpansBothEnds Spans
  grind

theorem Valid.intersection_of_inner (arcValid : arc.Valid) (otherValid : other.Valid)
    (inside : other.points ⊆ arc.points) :
    ∃ cover, other.intersection arc = .ok cover ∧ cover.same other = true := by
  obtain ⟨overlap, found, outcome⟩ := otherValid.intersection_cases arcValid
  refine ⟨overlap.toArc, found, ?_⟩
  by_cases exact : arc.points = ∅ ∨ ¬ other.SpansBothEnds arc
  · rw [(outcome.valid otherValid arcValid).same_iff_points otherValid,
      outcome.points_eq_inter otherValid arcValid exact]
    exact Set.inter_eq_left.mpr inside
  · rw [not_or, not_not] at exact
    obtain ⟨otherLength, arcLength, otherLengthIs, arcLengthIs, rfl⟩ :=
      outcome.of_spansBothEnds exact.1 exact.2
    rw [Overlap.toArc]
    split
    · rcases arcValid.same_or_full_of_spans otherValid inside exact.2 with same | whole
      · exact same
      · exact absurd ‹_› (otherValid.full_not_shorter arcValid whole otherLengthIs arcLengthIs)
    · exact same_refl other

theorem Valid.exactLength_le_of_not_lt (arcValid : arc.Valid) (otherValid : other.Valid)
    (nonempty : arc.points ≠ ∅) (otherNonempty : other.points ≠ ∅) {arcLength otherLength : Number}
    (arcLengthIs : arc.length = .ok arcLength) (otherLengthIs : other.length = .ok otherLength)
    (notShorter : ¬ otherLength.lt arcLength = true) :
    arc.exactLength ≤ other.exactLength + 3 / 2 ^ 51 := by
  obtain ⟨lo, hi, endsAt, counts⟩ := arcValid.exists_endsAt
  obtain ⟨otherLo, otherHi, otherAt, otherCounts⟩ := otherValid.exists_endsAt
  rw [Ne, ← arcValid.isEmpty_iff_points, endsAt.isEmpty_iff] at nonempty
  rw [Ne, ← otherValid.isEmpty_iff_points, otherAt.isEmpty_iff] at otherNonempty
  rw [endsAt.length_lt arcValid otherAt otherValid arcLengthIs otherLengthIs, not_lt] at notShorter
  have near := (counts.lengthUnits_near nonempty).2
  have otherNear := (otherCounts.lengthUnits_near otherNonempty).1
  have otherNonneg := otherCounts.spanUnits_nonneg
  have size := halfTurnUnits_eq_mul
  have positive := epsilonUnits_pos
  have bound : spanUnits lo hi ≤ spanUnits otherLo otherHi + 2 * epsilonUnits +
      2 * epsilonUnits + 2 * epsilonUnits := by
    by_cases shortest : lo = halfTurnUnits ∧ hi = 2 * epsilonUnits - halfTurnUnits
    · rw [spanUnits_of_lt (by omega)]
      omega
    · have := near shortest
      omega
  have valued := unitsValue_le_iff.mpr bound
  rw [unitsValue_add, unitsValue_add, unitsValue_add, unitsValue_two_epsilon] at valued
  rw [endsAt.exactLength, otherAt.exactLength]
  linarith

/-- Of nested arcs, the inner one is found with itself first. With the outer arc first it is found
just if it is empty, the same as the outer one, or measured shorter; else the outer arc is found,
which is then hardly longer. -/
theorem Valid.nested_intersection (arcValid : arc.Valid) (otherValid : other.Valid)
    (inside : arc.contains other = .ok true) :
    (∃ cover, other.intersection arc = .ok cover ∧ cover.same other = true) ∧
      ∃ cover otherLength arcLength, arc.intersection other = .ok cover ∧
        other.length = .ok otherLength ∧ arc.length = .ok arcLength ∧
        (cover.same other = true ↔
          other.isEmpty = true ∨ arc.same other = true ∨ otherLength.lt arcLength = true) ∧
        (cover.same other = true ∨
          cover = arc ∧ arc.exactLength ≤ other.exactLength + 3 / 2 ^ 51) := by
  rw [(arcValid.contains_decides otherValid).eq_true_iff] at inside
  refine ⟨arcValid.intersection_of_inner otherValid inside, ?_⟩
  obtain ⟨overlap, found, outcome⟩ := arcValid.intersection_cases otherValid
  obtain ⟨arcLength, arcLengthIs⟩ := arcValid.exists_length
  obtain ⟨otherLength, otherLengthIs⟩ := otherValid.exists_length
  refine ⟨overlap.toArc, otherLength, arcLength, found, otherLengthIs, arcLengthIs, ?_⟩
  by_cases vanishes : other.points = ∅
  · have same : overlap.toArc.same other = true := by
      rw [(outcome.valid arcValid otherValid).same_iff_points otherValid,
        outcome.points_eq_inter arcValid otherValid (.inl vanishes), vanishes, Set.inter_empty]
    exact ⟨iff_of_true same (.inl (otherValid.isEmpty_iff_points.mpr vanishes)), .inl same⟩
  have both := arcValid.spansBothEnds_of_subset otherValid inside vanishes
  obtain ⟨_, _, arcFound, otherFound, rfl⟩ := outcome.of_spansBothEnds vanishes both
  cases arcLengthIs.symm.trans arcFound
  cases otherLengthIs.symm.trans otherFound
  have nonempty : arc.points ≠ ∅ := fun empty => vanishes (Set.subset_empty_iff.mp (empty ▸ inside))
  rw [otherValid.isEmpty_iff_points, Overlap.toArc]
  by_cases shorter : otherLength.lt arcLength = true
  · simp only [shorter, ↓reduceIte, same_refl, or_true, true_or, and_self]
  · have close := arcValid.exactLength_le_of_not_lt otherValid nonempty vanishes arcLengthIs
      otherLengthIs shorter
    simp only [shorter, vanishes, Bool.false_eq_true, ↓reduceIte, false_or, or_false, true_and]
    exact .inr close

theorem Valid.nested_intersection_of_short :
    (Arc.mk (.number epsilon) (.number halfTurn)).Valid ∧
      (Arc.mk (.number epsilon) (.number endAllowance)).Valid ∧
      (Arc.mk (.number epsilon) (.number halfTurn)).contains
        ⟨.number epsilon, .number endAllowance⟩ = .ok true ∧
      ∃ cover, (Arc.mk (.number epsilon) (.number endAllowance)).intersection
          ⟨.number epsilon, .number halfTurn⟩ = .ok cover ∧
        cover.same ⟨.number epsilon, .number endAllowance⟩ = true := by
  have arcValid : (Arc.mk (.number epsilon) (.number halfTurn)).Valid := by decide +kernel
  have otherValid : (Arc.mk (.number epsilon) (.number endAllowance)).Valid := by decide +kernel
  have inside : (Arc.mk (.number epsilon) (.number halfTurn)).contains
      ⟨.number epsilon, .number endAllowance⟩ = .ok true := by
    decide +kernel
  exact ⟨arcValid, otherValid, inside, (arcValid.nested_intersection otherValid inside).1⟩

/-- The circle but for a gap of `epsilon` above zero. -/
def nearlyFull : Arc := ⟨.number epsilon, .number (Binary64.zero false)⟩

/-- The length of an arc with a gap that small is rounded to a full turn, so that the circle is found
in its place. -/
theorem full_intersection_misses_nearlyFull :
    full.Valid ∧ nearlyFull.Valid ∧ full.contains nearlyFull = .ok true ∧
      (do return (← full.intersection nearlyFull).same nearlyFull) =
        Except.ok (ε := Fault) false ∧
      (do return (← nearlyFull.intersection full).same nearlyFull) =
        Except.ok (ε := Fault) true :=
  ⟨by decide +kernel, by decide +kernel, by decide +kernel, by decide +kernel, by decide +kernel⟩

end Arc

end CircularArc
