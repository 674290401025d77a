import CircularArc.Proofs.Angles
import CircularArc.Proofs.Shape
import Mathlib.Data.Set.Lattice
import Mathlib.Order.CompletePartialOrder

/-!
# Tests between arcs are relations between point sets

Containment is inclusion and intersection is a common point. The interior tests follow by duality:
the interior of an arc is what its complement leaves out.
-/

set_option autoImplicit false

namespace CircularArc

theorem disjoint_Icc_Ioo_iff {first last lower upper : ℚ} (order : first ≤ last)
    (gap : lower < upper) :
    Disjoint (Set.Icc first last) (Set.Ioo lower upper) ↔ upper ≤ first ∨ last ≤ lower := by
  rw [Set.disjoint_left]
  constructor
  · intro apart
    by_contra overlap
    rw [not_or, not_le, not_le] at overlap
    rcases lt_or_ge lower first with inside | outside
    · exact apart (Set.left_mem_Icc.mpr order) ⟨inside, overlap.1⟩
    · obtain ⟨point, beyond, before⟩ := exists_between (lt_min overlap.2 gap)
      rw [lt_min_iff] at before
      exact apart ⟨by linarith, le_of_lt before.1⟩ ⟨beyond, before.2⟩
  · rintro beside point ⟨above, below⟩ ⟨beyond, before⟩
    rcases beside with after | before <;> linarith

namespace Arc

variable {arc other : Arc}

/-!
## Tests in terms of exact ends
-/

theorem Valid.holds_decides (valid : arc.Valid) {point : Value} (isAngle : point.IsAngle) :
    Decides (arc.holds point) (arc.Spans point.exactValue) := by
  obtain ⟨lo, hi, rfl, loPlaced, hiPlaced⟩ := valid.exists_numbers
  obtain ⟨place, rfl⟩ := isAngle.eq_number
  refine .of_ok (holds_number lo hi place) ?_
  simp only [Spans, Number.lt_eq_decide, Number.le_eq_decide, loPlaced, hiPlaced, isAngle.isPlaced,
    decide_eq_true_eq, Bool.ite_eq_true_distrib, Bool.and_eq_true, Bool.or_eq_true,
    Bool.not_eq_true', ← Bool.not_eq_true, valid.isEmpty_iff]
  grind

theorem Valid.interiorHolds_ends (valid : arc.Valid) {point : Value} (isAngle : point.IsAngle) :
    Decides (arc.interiorHolds point)
      (if arc.hi.exactValue < arc.lo.exactValue then
        arc.lo.exactValue < point.exactValue ∨ point.exactValue < arc.hi.exactValue
      else
        (arc.lo.exactValue < point.exactValue ∧ point.exactValue < arc.hi.exactValue) ∨
          (arc.lo.exactValue = -halfCircle ∧ arc.hi.exactValue = halfCircle)) := by
  obtain ⟨lo, hi, rfl, loPlaced, hiPlaced⟩ := valid.exists_numbers
  obtain ⟨place, rfl⟩ := isAngle.eq_number
  refine .of_ok (interiorHolds_number lo hi place) ?_
  simp only [Number.lt_eq_decide, loPlaced, hiPlaced, isAngle.isPlaced, decide_eq_true_eq,
    Bool.ite_eq_true_distrib, Bool.and_eq_true, Bool.or_eq_true, valid.isFull_iff]

theorem Valid.contains_ends (arcValid : arc.Valid) (otherValid : other.Valid) :
    Decides (arc.contains other)
      (if arc.hi.exactValue < arc.lo.exactValue then
        if other.hi.exactValue < other.lo.exactValue then
          arc.lo.exactValue ≤ other.lo.exactValue ∧ other.hi.exactValue ≤ arc.hi.exactValue
        else
          (arc.lo.exactValue ≤ other.lo.exactValue ∨ other.hi.exactValue ≤ arc.hi.exactValue) ∧
            ¬ (arc.lo.exactValue = halfCircle ∧ arc.hi.exactValue = -halfCircle)
      else if other.hi.exactValue < other.lo.exactValue then
        (arc.lo.exactValue = -halfCircle ∧ arc.hi.exactValue = halfCircle) ∨
          (other.lo.exactValue = halfCircle ∧ other.hi.exactValue = -halfCircle)
      else
        arc.lo.exactValue ≤ other.lo.exactValue ∧ other.hi.exactValue ≤ arc.hi.exactValue) := by
  obtain ⟨lo, hi, rfl, loPlaced, hiPlaced⟩ := arcValid.exists_numbers
  obtain ⟨otherLo, otherHi, rfl, otherLoPlaced, otherHiPlaced⟩ := otherValid.exists_numbers
  refine .of_ok (contains_number lo hi otherLo otherHi) ?_
  simp only [Number.lt_eq_decide, Number.le_eq_decide, loPlaced, hiPlaced, otherLoPlaced,
    otherHiPlaced, decide_eq_true_eq, Bool.ite_eq_true_distrib, Bool.and_eq_true, Bool.or_eq_true,
    Bool.not_eq_true', ← Bool.not_eq_true, arcValid.isEmpty_iff, arcValid.isFull_iff,
    otherValid.isEmpty_iff]

theorem Valid.interiorContains_ends (arcValid : arc.Valid) (otherValid : other.Valid) :
    Decides (arc.interiorContains other)
      (if arc.hi.exactValue < arc.lo.exactValue then
        if other.hi.exactValue < other.lo.exactValue then
          (arc.lo.exactValue < other.lo.exactValue ∧ other.hi.exactValue < arc.hi.exactValue) ∨
            (other.lo.exactValue = halfCircle ∧ other.hi.exactValue = -halfCircle)
        else
          arc.lo.exactValue < other.lo.exactValue ∨ other.hi.exactValue < arc.hi.exactValue
      else if other.hi.exactValue < other.lo.exactValue then
        (arc.lo.exactValue = -halfCircle ∧ arc.hi.exactValue = halfCircle) ∨
          (other.lo.exactValue = halfCircle ∧ other.hi.exactValue = -halfCircle)
      else
        (arc.lo.exactValue < other.lo.exactValue ∧ other.hi.exactValue < arc.hi.exactValue) ∨
          (arc.lo.exactValue = -halfCircle ∧ arc.hi.exactValue = halfCircle)) := by
  obtain ⟨lo, hi, rfl, loPlaced, hiPlaced⟩ := arcValid.exists_numbers
  obtain ⟨otherLo, otherHi, rfl, otherLoPlaced, otherHiPlaced⟩ := otherValid.exists_numbers
  refine .of_ok (interiorContains_number lo hi otherLo otherHi) ?_
  simp only [Number.lt_eq_decide, loPlaced, hiPlaced, otherLoPlaced, otherHiPlaced,
    decide_eq_true_eq, Bool.ite_eq_true_distrib, Bool.and_eq_true, Bool.or_eq_true,
    arcValid.isFull_iff, otherValid.isEmpty_iff]

theorem Valid.intersects_ends (arcValid : arc.Valid) (otherValid : other.Valid) :
    Decides (arc.intersects other)
      (¬ (arc.lo.exactValue = halfCircle ∧ arc.hi.exactValue = -halfCircle) ∧
        ¬ (other.lo.exactValue = halfCircle ∧ other.hi.exactValue = -halfCircle) ∧
        if arc.hi.exactValue < arc.lo.exactValue then
          other.hi.exactValue < other.lo.exactValue ∨
            other.lo.exactValue ≤ arc.hi.exactValue ∨ arc.lo.exactValue ≤ other.hi.exactValue
        else if other.hi.exactValue < other.lo.exactValue then
          other.lo.exactValue ≤ arc.hi.exactValue ∨ arc.lo.exactValue ≤ other.hi.exactValue
        else
          other.lo.exactValue ≤ arc.hi.exactValue ∧ arc.lo.exactValue ≤ other.hi.exactValue) := by
  obtain ⟨lo, hi, rfl, loPlaced, hiPlaced⟩ := arcValid.exists_numbers
  obtain ⟨otherLo, otherHi, rfl, otherLoPlaced, otherHiPlaced⟩ := otherValid.exists_numbers
  refine .of_ok (intersects_number lo hi otherLo otherHi) ?_
  simp only [Number.lt_eq_decide, Number.le_eq_decide, loPlaced, hiPlaced, otherLoPlaced,
    otherHiPlaced, decide_eq_true_eq, Bool.ite_eq_true_distrib, Bool.and_eq_true, Bool.or_eq_true,
    arcValid.isEmpty_iff, otherValid.isEmpty_iff]
  grind

theorem Valid.interiorIntersects_ends (arcValid : arc.Valid) (otherValid : other.Valid) :
    Decides (arc.interiorIntersects other)
      (¬ (arc.lo.exactValue = halfCircle ∧ arc.hi.exactValue = -halfCircle) ∧
        ¬ (other.lo.exactValue = halfCircle ∧ other.hi.exactValue = -halfCircle) ∧
        arc.lo.exactValue ≠ arc.hi.exactValue ∧
        if arc.hi.exactValue < arc.lo.exactValue then
          other.hi.exactValue < other.lo.exactValue ∨
            other.lo.exactValue < arc.hi.exactValue ∨ arc.lo.exactValue < other.hi.exactValue
        else if other.hi.exactValue < other.lo.exactValue then
          other.lo.exactValue < arc.hi.exactValue ∨ arc.lo.exactValue < other.hi.exactValue
        else
          (other.lo.exactValue < arc.hi.exactValue ∧ arc.lo.exactValue < other.hi.exactValue) ∨
            (arc.lo.exactValue = -halfCircle ∧ arc.hi.exactValue = halfCircle)) := by
  obtain ⟨lo, hi, rfl, loPlaced, hiPlaced⟩ := arcValid.exists_numbers
  obtain ⟨otherLo, otherHi, rfl, otherLoPlaced, otherHiPlaced⟩ := otherValid.exists_numbers
  refine .of_ok (interiorIntersects_number lo hi otherLo otherHi) ?_
  simp only [Number.lt_eq_decide, Number.same_eq_decide, loPlaced, hiPlaced, otherLoPlaced,
    otherHiPlaced, decide_eq_true_eq, Bool.ite_eq_true_distrib, Bool.and_eq_true, Bool.or_eq_true,
    arcValid.isEmpty_iff, arcValid.isFull_iff, otherValid.isEmpty_iff]
  grind

/-!
## Containment
-/

theorem subset_points_of_inverted {points : Set ℚ} (onCircle : points ⊆ circle)
    (above : -halfCircle < arc.hi.exactValue)
    (order : arc.hi.exactValue < arc.lo.exactValue) :
    points ⊆ arc.points ↔ Disjoint points (Set.Ioo arc.hi.exactValue arc.lo.exactValue) := by
  rw [points_of_inverted above order, Set.subset_sdiff]
  exact and_iff_right onCircle

/-- What lies within a normal arc runs from end to end between its ends, or is empty. -/
theorem Valid.points_subset_iff_of_normal (otherValid : other.Valid)
    (above : -halfCircle < arc.lo.exactValue) (order : arc.lo.exactValue ≤ arc.hi.exactValue)
    (below : arc.hi.exactValue ≤ halfCircle) :
    other.points ⊆ arc.points ↔
      if other.hi.exactValue < other.lo.exactValue then
        other.lo.exactValue = halfCircle ∧ other.hi.exactValue = -halfCircle
      else arc.lo.exactValue ≤ other.lo.exactValue ∧ other.hi.exactValue ≤ arc.hi.exactValue := by
  have positive := halfCircle_pos
  have otherEnds := otherValid.exactEnds
  rw [points_of_normal above order below]
  by_cases wraps : other.Wraps
  · obtain ⟨point, member, before⟩ := otherValid.exists_mem_points_lt wraps above
    have escapes : ¬ other.points ⊆ Set.Icc arc.lo.exactValue arc.hi.exactValue :=
      fun inside => absurd (inside member).1 (not_le.mpr before)
    unfold Wraps at wraps
    simp only [escapes, false_iff]
    grind
  · unfold Wraps at wraps
    cases otherValid.shape with
    | empty loAt hiAt =>
      rw [points_of_empty loAt hiAt]
      simp only [Set.empty_subset, true_iff]
      grind
    | full loAt hiAt => grind
    | normal otherAbove otherOrder otherBelow =>
      rw [points_of_normal otherAbove otherOrder otherBelow, Set.Icc_subset_Icc_iff otherOrder]
      grind
    | inverted otherAbove otherOrder otherBelow => grind

theorem Valid.points_subset_iff_of_inverted (arcValid : arc.Valid) (otherValid : other.Valid)
    (above : -halfCircle < arc.hi.exactValue) (order : arc.hi.exactValue < arc.lo.exactValue) :
    other.points ⊆ arc.points ↔
      if other.hi.exactValue < other.lo.exactValue then
        arc.lo.exactValue ≤ other.lo.exactValue ∧ other.hi.exactValue ≤ arc.hi.exactValue
      else arc.lo.exactValue ≤ other.lo.exactValue ∨ other.hi.exactValue ≤ arc.hi.exactValue := by
  have positive := halfCircle_pos
  have ends := arcValid.exactEnds
  have gapOnCircle := arcValid.gap_subset_circle above
  rw [subset_points_of_inverted points_subset_circle above order]
  cases otherValid.shape with
  | empty loAt hiAt =>
    rw [points_of_empty loAt hiAt]
    simp only [Set.empty_disjoint, true_iff]
    grind
  | full loAt hiAt =>
    have meets : ¬ Disjoint circle (Set.Ioo arc.hi.exactValue arc.lo.exactValue) := by
      intro apart
      obtain ⟨point, inGap⟩ := Set.nonempty_Ioo.mpr order
      exact Set.disjoint_left.mp apart (gapOnCircle inGap) inGap
    rw [points_of_full loAt hiAt]
    simp only [meets, false_iff]
    grind
  | normal otherAbove otherOrder otherBelow =>
    rw [points_of_normal otherAbove otherOrder otherBelow, disjoint_Icc_Ioo_iff otherOrder order,
      if_neg (not_lt.mpr otherOrder)]
  | inverted otherAbove otherOrder otherBelow =>
    rw [points_of_inverted otherAbove otherOrder, disjoint_comm,
      disjoint_sdiff_iff_le gapOnCircle (otherValid.gap_subset_circle otherAbove),
      Set.Ioo_subset_Ioo_iff order, if_pos otherOrder, and_comm]

theorem Valid.contains_decides (arcValid : arc.Valid) (otherValid : other.Valid) :
    Decides (arc.contains other) (other.points ⊆ arc.points) := by
  refine (arcValid.contains_ends otherValid).congr ?_
  have positive := halfCircle_pos
  have otherEnds := otherValid.exactEnds
  cases arcValid.shape with
  | empty loAt hiAt =>
    rw [points_of_empty loAt hiAt, Set.subset_empty_iff, otherValid.points_eq_empty_iff]
    grind
  | full loAt hiAt =>
    rw [points_of_full loAt hiAt]
    simp only [points_subset_circle, iff_true]
    grind
  | normal above order below =>
    rw [otherValid.points_subset_iff_of_normal above order below, if_neg (not_lt.mpr order)]
    grind
  | inverted above order below =>
    rw [arcValid.points_subset_iff_of_inverted otherValid above order, if_pos order]
    grind

theorem Valid.contains_refl (valid : arc.Valid) : arc.contains arc = .ok true :=
  (valid.contains_decides valid).eq_true_iff.mpr (Set.Subset.refl _)

theorem Valid.contains_empty (valid : arc.Valid) : arc.contains empty = .ok true := by
  refine (valid.contains_decides empty_valid).eq_true_iff.mpr ?_
  rw [empty_points]
  exact Set.empty_subset _

theorem Valid.full_contains (valid : arc.Valid) : full.contains arc = .ok true := by
  refine (full_valid.contains_decides valid).eq_true_iff.mpr ?_
  rw [full_points]
  exact points_subset_circle

theorem Valid.containsPoint_decides (valid : arc.Valid) {value : Value} (isAngle : value.IsAngle)
    (notTruth : value.kind ≠ .truth) :
    Decides (arc.containsPoint value) (value.circlePoint ∈ arc.points) := by
  obtain ⟨point, pointIs, pointAngle, pointAt⟩ := isAngle.point notTruth
  have opened : arc.containsPoint value = arc.holds point := by
    rw [containsPoint, pointIs, ok_bind]
  rw [opened, mem_points_iff, ← pointAt]
  refine (valid.holds_decides pointAngle).congr ?_
  rw [pointAt]
  exact (and_iff_right isAngle.circlePoint_mem).symm

/-!
## Intersection
-/

private theorem inter_nonempty_of_normal (above : -halfCircle < arc.lo.exactValue)
    (order : arc.lo.exactValue ≤ arc.hi.exactValue) (below : arc.hi.exactValue ≤ halfCircle)
    (otherValid : other.Valid) : (arc.points ∩ other.points).Nonempty ↔
      ¬ (other.lo.exactValue = halfCircle ∧ other.hi.exactValue = -halfCircle) ∧
        if other.hi.exactValue < other.lo.exactValue then
          other.lo.exactValue ≤ arc.hi.exactValue ∨ arc.lo.exactValue ≤ other.hi.exactValue
        else
          other.lo.exactValue ≤ arc.hi.exactValue ∧ arc.lo.exactValue ≤ other.hi.exactValue := by
  have positive := halfCircle_pos
  have onCircle : arc.points ⊆ circle := points_subset_circle
  cases otherValid.shape with
  | empty loAt hiAt =>
    rw [points_of_empty loAt hiAt, Set.inter_empty]
    simp only [Set.not_nonempty_empty, loAt, hiAt, and_self, not_true, false_and]
  | full loAt hiAt =>
    rw [points_of_full loAt hiAt, Set.inter_eq_left.mpr onCircle,
      points_of_normal above order below, Set.nonempty_Icc]
    grind
  | normal otherAbove otherOrder otherBelow =>
    rw [points_of_normal above order below, points_of_normal otherAbove otherOrder otherBelow,
      Set.Icc_inter_Icc, Set.nonempty_Icc, max_le_iff, le_min_iff, le_min_iff]
    grind
  | inverted otherAbove otherOrder otherBelow =>
    rw [points_of_inverted otherAbove otherOrder, ← Set.inter_sdiff_assoc,
      Set.inter_eq_left.mpr onCircle, Set.sdiff_nonempty, points_of_normal above order below,
      Set.Icc_subset_Ioo_iff order]
    grind

theorem Valid.intersects_decides (arcValid : arc.Valid) (otherValid : other.Valid) :
    Decides (arc.intersects other) (arc.points ∩ other.points).Nonempty := by
  refine (arcValid.intersects_ends otherValid).congr ?_
  have positive := halfCircle_pos
  have otherEnds := otherValid.exactEnds
  have otherShape := otherValid.shape
  by_cases wraps : arc.Wraps
  · by_cases otherWraps : other.Wraps
    · have common : (arc.points ∩ other.points).Nonempty :=
        ⟨halfCircle, arcValid.halfCircle_mem_points wraps,
          otherValid.halfCircle_mem_points otherWraps⟩
      unfold Wraps at wraps otherWraps
      simp only [common, iff_true]
      grind
    · unfold Wraps at wraps otherWraps
      cases otherShape with
      | empty loAt hiAt =>
        rw [points_of_empty loAt hiAt, Set.inter_empty]
        simp only [Set.not_nonempty_empty, loAt, hiAt, and_self, not_true, false_and, and_false]
      | full loAt hiAt => grind
      | normal otherAbove otherOrder otherBelow =>
        rw [Set.inter_comm, inter_nonempty_of_normal otherAbove otherOrder otherBelow arcValid]
        grind
      | inverted otherAbove otherOrder otherBelow => grind
  · unfold Wraps at wraps
    cases arcValid.shape with
    | empty loAt hiAt =>
      rw [points_of_empty loAt hiAt, Set.empty_inter]
      simp only [Set.not_nonempty_empty, loAt, hiAt, and_self, not_true, false_and]
    | full loAt hiAt => grind
    | normal above order below =>
      rw [inter_nonempty_of_normal above order below otherValid]
      grind
    | inverted above order below => grind

/-!
## Interiors
-/

theorem Valid.subset_interiorPoints_iff (valid : arc.Valid) {points : Set ℚ}
    (onCircle : points ⊆ circle) :
    points ⊆ arc.interiorPoints ↔ ¬ (arc.complement.points ∩ points).Nonempty := by
  rw [valid.interiorPoints_eq, Set.subset_sdiff, and_iff_right onCircle,
    Set.not_nonempty_iff_eq_empty, Set.disjoint_iff_inter_eq_empty, Set.inter_comm]

theorem Valid.interior_inter_nonempty_iff (valid : arc.Valid) {points : Set ℚ}
    (onCircle : points ⊆ circle) :
    (arc.interiorPoints ∩ points).Nonempty ↔ ¬ points ⊆ arc.complement.points := by
  rw [valid.interiorPoints_eq, Set.inter_comm, ← Set.inter_sdiff_assoc,
    Set.inter_eq_left.mpr onCircle, Set.sdiff_nonempty]

theorem Valid.interiorContains_decides (arcValid : arc.Valid) (otherValid : other.Valid) :
    Decides (arc.interiorContains other) (other.points ⊆ arc.interiorPoints) := by
  refine (arcValid.interiorContains_ends otherValid).congr ?_
  have dual := (arcValid.complement.intersects_decides otherValid).unique
    (arcValid.complement.intersects_ends otherValid)
  obtain ⟨complementLo, complementHi⟩ := arcValid.complement_ends
  rw [arcValid.subset_interiorPoints_iff points_subset_circle, dual, complementLo, complementHi]
  have positive := halfCircle_pos
  have otherEnds := otherValid.exactEnds
  have ends := arcValid.exactEnds
  grind

theorem Valid.interiorIntersects_decides (arcValid : arc.Valid) (otherValid : other.Valid) :
    Decides (arc.interiorIntersects other) (arc.interiorPoints ∩ other.points).Nonempty := by
  refine (arcValid.interiorIntersects_ends otherValid).congr ?_
  have dual := (arcValid.complement.contains_decides otherValid).unique
    (arcValid.complement.contains_ends otherValid)
  obtain ⟨complementLo, complementHi⟩ := arcValid.complement_ends
  rw [arcValid.interior_inter_nonempty_iff points_subset_circle, dual, complementLo, complementHi]
  have positive := halfCircle_pos
  have otherEnds := otherValid.exactEnds
  have ends := arcValid.exactEnds
  grind

theorem Valid.interiorContainsPoint_decides (valid : arc.Valid) {value : Value}
    (isAngle : value.IsAngle) (notTruth : value.kind ≠ .truth) :
    Decides (arc.interiorContainsPoint value) (value.circlePoint ∈ arc.interiorPoints) := by
  obtain ⟨point, pointIs, pointAngle, pointAt⟩ := isAngle.point notTruth
  have onCircle := isAngle.circlePoint_mem
  have opened : arc.interiorContainsPoint value = arc.interiorHolds point := by
    rw [interiorContainsPoint, pointIs, ok_bind]
  rw [opened]
  refine (valid.interiorHolds_ends pointAngle).congr ?_
  rw [pointAt]
  simp only [interiorPoints, Set.mem_ofPred_eq, onCircle, true_and]
  grind

/-!
## What the tests mean
-/

/-- Containment tests are inclusions of exact point sets, for points and arcs, closed and interior
alike, and none of them fails. -/
theorem Valid.containment_is_inclusion (arcValid : arc.Valid) (otherValid : other.Valid)
    {point : Value} (isAngle : point.IsAngle) (notTruth : point.kind ≠ .truth) :
    Decides (arc.containsPoint point) (point.circlePoint ∈ arc.points) ∧
      Decides (arc.interiorContainsPoint point) (point.circlePoint ∈ arc.interiorPoints) ∧
      Decides (arc.contains other) (other.points ⊆ arc.points) ∧
      Decides (arc.interiorContains other) (other.points ⊆ arc.interiorPoints) :=
  ⟨arcValid.containsPoint_decides isAngle notTruth,
    arcValid.interiorContainsPoint_decides isAngle notTruth,
    arcValid.contains_decides otherValid, arcValid.interiorContains_decides otherValid⟩

theorem Valid.containment_is_inclusion_at_half_turn :
    (Arc.mk (.number halfTurn) (.number epsilon)).Valid ∧
      (Arc.mk (.number halfTurn) (.number epsilon.neg)).Valid ∧
      (Value.number minusHalfTurn).IsAngle ∧ (Value.number minusHalfTurn).kind ≠ .truth ∧
      halfCircle ∈ (Arc.mk (.number halfTurn) (.number epsilon)).points ∧
      halfCircle ∉ (Arc.mk (.number halfTurn) (.number epsilon)).interiorPoints ∧
      (Arc.mk (.number halfTurn) (.number epsilon.neg)).points ⊆
        (Arc.mk (.number halfTurn) (.number epsilon)).points ∧
      ¬ (Arc.mk (.number halfTurn) (.number epsilon.neg)).points ⊆
        (Arc.mk (.number halfTurn) (.number epsilon)).interiorPoints := by
  have arcValid : (Arc.mk (.number halfTurn) (.number epsilon)).Valid := by decide +kernel
  have otherValid : (Arc.mk (.number halfTurn) (.number epsilon.neg)).Valid := by decide +kernel
  have isAngle : (Value.number minusHalfTurn).IsAngle := by decide +kernel
  have notTruth : (Value.number minusHalfTurn).kind ≠ .truth := by decide
  have named : (Value.number minusHalfTurn).circlePoint = halfCircle :=
    if_pos Value.exactValue_minusHalfTurn
  obtain ⟨closed, inner, contains, interiorContains⟩ :=
    arcValid.containment_is_inclusion otherValid isAngle notTruth
  rw [named] at closed inner
  exact ⟨arcValid, otherValid, isAngle, notTruth, closed.eq_true_iff.mp (by decide +kernel),
    inner.eq_false_iff.mp (by decide +kernel), contains.eq_true_iff.mp (by decide +kernel),
    interiorContains.eq_false_iff.mp (by decide +kernel)⟩

/-- Intersection tests ask for a common exact point, and none of them fails. -/
theorem Valid.intersection_is_common_point (arcValid : arc.Valid) (otherValid : other.Valid) :
    Decides (arc.intersects other) (arc.points ∩ other.points).Nonempty ∧
      Decides (arc.interiorIntersects other) (arc.interiorPoints ∩ other.points).Nonempty ∧
      arc.intersects other = other.intersects arc ∧
      (arc.interiorIntersects other = .ok true → arc.intersects other = .ok true) := by
  have closed := arcValid.intersects_decides otherValid
  have inner := arcValid.interiorIntersects_decides otherValid
  refine ⟨closed, inner, ?_, ?_⟩
  · exact closed.eq_of_iff (otherValid.intersects_decides arcValid) (by rw [Set.inter_comm])
  · rw [closed.eq_true_iff, inner.eq_true_iff]
    exact Set.Nonempty.mono (Set.inter_subset_inter_left _ arcValid.interiorPoints_subset)

theorem Valid.intersection_is_common_point_of_ends :
    (Arc.mk (.number halfTurn) (.number epsilon)).Valid ∧
      (Arc.mk (.number epsilon) (.number halfTurn)).Valid ∧
      ((Arc.mk (.number halfTurn) (.number epsilon)).points ∩
        (Arc.mk (.number epsilon) (.number halfTurn)).points).Nonempty ∧
      ¬ ((Arc.mk (.number halfTurn) (.number epsilon)).interiorPoints ∩
        (Arc.mk (.number epsilon) (.number halfTurn)).points).Nonempty := by
  have arcValid : (Arc.mk (.number halfTurn) (.number epsilon)).Valid := by decide +kernel
  have otherValid : (Arc.mk (.number epsilon) (.number halfTurn)).Valid := by decide +kernel
  obtain ⟨closed, inner, -, -⟩ := arcValid.intersection_is_common_point otherValid
  exact ⟨arcValid, otherValid, closed.eq_true_iff.mp (by decide +kernel),
    inner.eq_false_iff.mp (by decide +kernel)⟩

end Arc

end CircularArc
