import CircularArc.Proofs.ExactOrder
import Mathlib.Order.Interval.Set.LinearOrder

/-!
# The shapes of valid arcs

The exact ends of a valid arc tell which of four shapes it has, and each shape has a simple point
set: nothing, the circle, a closed interval, or the circle less the open gap that an inverted arc
leaves out. Full and inverted arcs run on beyond the point at half a turn.
-/

set_option autoImplicit false

namespace CircularArc

namespace Arc

/-- The shape of an arc, by its exact ends. Only the first two shapes use minus half a turn. -/
inductive Shape (arc : Arc) : Prop where
  | empty (loAt : arc.lo.exactValue = halfCircle) (hiAt : arc.hi.exactValue = -halfCircle)
  | full (loAt : arc.lo.exactValue = -halfCircle) (hiAt : arc.hi.exactValue = halfCircle)
  | normal (above : -halfCircle < arc.lo.exactValue)
      (order : arc.lo.exactValue ≤ arc.hi.exactValue) (below : arc.hi.exactValue ≤ halfCircle)
  | inverted (above : -halfCircle < arc.hi.exactValue)
      (order : arc.hi.exactValue < arc.lo.exactValue) (below : arc.lo.exactValue ≤ halfCircle)

/-- The arc runs on beyond the point at half a turn: it is inverted, but not empty, or full. -/
def Wraps (arc : Arc) : Prop :=
  -halfCircle < arc.hi.exactValue ∧
    (arc.hi.exactValue < arc.lo.exactValue ∨ arc.lo.exactValue = -halfCircle)

/-- A place lies between the ends. Unlike a point, a place may be minus half a turn itself. -/
def Spans (arc : Arc) (place : ℚ) : Prop :=
  if arc.lo.exactValue ≤ arc.hi.exactValue then
    arc.lo.exactValue ≤ place ∧ place ≤ arc.hi.exactValue
  else
    ¬ (arc.lo.exactValue = halfCircle ∧ arc.hi.exactValue = -halfCircle) ∧
      (arc.lo.exactValue ≤ place ∨ place ≤ arc.hi.exactValue)

variable {arc : Arc}

theorem valid_iff : arc.Valid ↔ arc.lo.IsAngle ∧ arc.hi.IsAngle ∧
    (arc.lo.exactValue = -halfCircle → arc.hi.exactValue = halfCircle) ∧
    (arc.hi.exactValue = -halfCircle → arc.lo.exactValue = halfCircle) := by
  constructor
  · intro valid
    have loPlaced := valid.lo_isAngle.isPlaced
    have hiPlaced := valid.hi_isAngle.isPlaced
    refine ⟨valid.lo_isAngle, valid.hi_isAngle, ?_, ?_⟩
    · rw [← loPlaced.isMinusHalfTurn_iff, ← hiPlaced.isHalfTurn_iff]
      exact valid.hi_of_lo
    · rw [← hiPlaced.isMinusHalfTurn_iff, ← loPlaced.isHalfTurn_iff]
      exact valid.lo_of_hi
  · rintro ⟨loAngle, hiAngle, hiOfLo, loOfHi⟩
    rw [← loAngle.isPlaced.isMinusHalfTurn_iff, ← hiAngle.isPlaced.isHalfTurn_iff] at hiOfLo
    rw [← hiAngle.isPlaced.isMinusHalfTurn_iff, ← loAngle.isPlaced.isHalfTurn_iff] at loOfHi
    exact ⟨loAngle, hiAngle, hiOfLo, loOfHi⟩

theorem Valid.hi_exact_of_lo (valid : arc.Valid) (loAt : arc.lo.exactValue = -halfCircle) :
    arc.hi.exactValue = halfCircle := (valid_iff.mp valid).2.2.1 loAt

theorem Valid.lo_exact_of_hi (valid : arc.Valid) (hiAt : arc.hi.exactValue = -halfCircle) :
    arc.lo.exactValue = halfCircle := (valid_iff.mp valid).2.2.2 hiAt

theorem valid_of_above {lo hi : Value} (loAngle : lo.IsAngle) (hiAngle : hi.IsAngle)
    (loAbove : -halfCircle < lo.exactValue) (hiAbove : -halfCircle < hi.exactValue) :
    (Arc.mk lo hi).Valid :=
  valid_iff.mpr ⟨loAngle, hiAngle, fun loAt => absurd loAt (ne_of_gt loAbove),
    fun hiAt => absurd hiAt (ne_of_gt hiAbove)⟩

theorem halfTurn_point_valid : (Arc.mk (.number halfTurn) (.number halfTurn)).Valid := by
  have above : -halfCircle < (Value.number halfTurn).exactValue := by
    rw [Value.exactValue_halfTurn]
    exact neg_lt_self halfCircle_pos
  exact valid_of_above Value.halfTurn_isAngle Value.halfTurn_isAngle above above

theorem Valid.exists_numbers (valid : arc.Valid) :
    ∃ lo hi : Number, arc = ⟨.number lo, .number hi⟩ ∧
      (Value.number lo).IsPlaced ∧ (Value.number hi).IsPlaced := by
  obtain ⟨lo, loIs⟩ := valid.lo_isAngle.eq_number
  obtain ⟨hi, hiIs⟩ := valid.hi_isAngle.eq_number
  refine ⟨lo, hi, ?_, ?_, ?_⟩
  · rw [← loIs, ← hiIs]
  · rw [← loIs]
    exact valid.lo_isAngle.isPlaced
  · rw [← hiIs]
    exact valid.hi_isAngle.isPlaced

theorem Valid.isEmpty_iff (valid : arc.Valid) : arc.isEmpty = true ↔
    arc.lo.exactValue = halfCircle ∧ arc.hi.exactValue = -halfCircle := by
  rw [isEmpty, Bool.and_eq_true, Value.isHalfTurn_iff, Value.isMinusHalfTurn_iff,
    valid.lo_isAngle.isPlaced.isHalfTurn_iff, valid.hi_isAngle.isPlaced.isMinusHalfTurn_iff]

theorem Valid.isFull_iff (valid : arc.Valid) : arc.isFull = true ↔
    arc.lo.exactValue = -halfCircle ∧ arc.hi.exactValue = halfCircle := by
  rw [isFull, Bool.and_eq_true, Value.isHalfTurn_iff, Value.isMinusHalfTurn_iff,
    valid.hi_isAngle.isPlaced.isHalfTurn_iff, valid.lo_isAngle.isPlaced.isMinusHalfTurn_iff]

theorem Valid.sameEnds_iff (valid : arc.Valid) :
    arc.lo.same arc.hi = true ↔ arc.lo.exactValue = arc.hi.exactValue := by
  obtain ⟨lo, hi, rfl, loPlaced, hiPlaced⟩ := valid.exists_numbers
  rw [Value.same_number, Number.same_eq_decide loPlaced hiPlaced, decide_eq_true_eq]

theorem Valid.exactEnds (valid : arc.Valid) :
    (-halfCircle ≤ arc.lo.exactValue ∧ arc.lo.exactValue ≤ halfCircle) ∧
      (-halfCircle ≤ arc.hi.exactValue ∧ arc.hi.exactValue ≤ halfCircle) ∧
      (arc.lo.exactValue = -halfCircle → arc.hi.exactValue = halfCircle) ∧
      (arc.hi.exactValue = -halfCircle → arc.lo.exactValue = halfCircle) := by
  obtain ⟨loAngle, hiAngle, exceptions⟩ := valid_iff.mp valid
  exact ⟨(Value.isAngle_iff.mp loAngle).2, (Value.isAngle_iff.mp hiAngle).2, exceptions⟩

theorem Valid.shape (valid : arc.Valid) : arc.Shape := by
  obtain ⟨⟨loFrom, loTo⟩, ⟨hiFrom, hiTo⟩, -⟩ := valid.exactEnds
  by_cases loAt : arc.lo.exactValue = -halfCircle
  · exact .full loAt (valid.hi_exact_of_lo loAt)
  · by_cases hiAt : arc.hi.exactValue = -halfCircle
    · exact .empty (valid.lo_exact_of_hi hiAt) hiAt
    · rcases le_or_gt arc.lo.exactValue arc.hi.exactValue with order | order
      · exact .normal (lt_of_le_of_ne loFrom (Ne.symm loAt)) order hiTo
      · exact .inverted (lt_of_le_of_ne hiFrom (Ne.symm hiAt)) order loTo

theorem mem_circle_iff {point : ℚ} : point ∈ circle ↔ -halfCircle < point ∧ point ≤ halfCircle :=
  Iff.rfl

theorem mem_points_iff {point : ℚ} : point ∈ arc.points ↔ point ∈ circle ∧ arc.Spans point :=
  Iff.rfl

theorem mem_interiorPoints_iff {point : ℚ} : point ∈ arc.interiorPoints ↔ point ∈ circle ∧
    if arc.lo.exactValue ≤ arc.hi.exactValue then
      (arc.lo.exactValue = -halfCircle ∧ arc.hi.exactValue = halfCircle) ∨
        (arc.lo.exactValue < point ∧ point < arc.hi.exactValue)
    else
      arc.lo.exactValue < point ∨ point < arc.hi.exactValue :=
  Iff.rfl

theorem points_subset_circle : arc.points ⊆ circle := fun _ member => member.1

theorem points_of_empty (loAt : arc.lo.exactValue = halfCircle)
    (hiAt : arc.hi.exactValue = -halfCircle) : arc.points = ∅ := by
  have positive := halfCircle_pos
  ext point
  simp only [mem_points_iff, Spans, loAt, hiAt, Set.mem_empty_iff_false, iff_false]
  rw [if_neg (by linarith)]
  simp

theorem points_of_full (loAt : arc.lo.exactValue = -halfCircle)
    (hiAt : arc.hi.exactValue = halfCircle) : arc.points = circle := by
  have positive := halfCircle_pos
  ext point
  simp only [mem_points_iff, Spans, loAt, hiAt]
  rw [if_pos (by linarith)]
  exact and_iff_left_of_imp fun member => ⟨le_of_lt member.1, member.2⟩

theorem full_lo_exact : full.lo.exactValue = -halfCircle := Value.exactValue_minusHalfTurn

theorem full_hi_exact : full.hi.exactValue = halfCircle := Value.exactValue_halfTurn

theorem empty_lo_exact : empty.lo.exactValue = halfCircle := Value.exactValue_halfTurn

theorem empty_hi_exact : empty.hi.exactValue = -halfCircle := Value.exactValue_minusHalfTurn

theorem full_points : full.points = circle := points_of_full full_lo_exact full_hi_exact

theorem empty_points : empty.points = ∅ := points_of_empty empty_lo_exact empty_hi_exact

theorem points_of_normal (above : -halfCircle < arc.lo.exactValue)
    (order : arc.lo.exactValue ≤ arc.hi.exactValue) (below : arc.hi.exactValue ≤ halfCircle) :
    arc.points = Set.Icc arc.lo.exactValue arc.hi.exactValue := by
  ext point
  simp only [mem_points_iff, Spans, if_pos order, Set.mem_Icc]
  exact and_iff_right_of_imp fun member =>
    ⟨lt_of_lt_of_le above member.1, le_trans member.2 below⟩

theorem single_points {point : Value} (isAngle : point.IsAngle)
    (above : -halfCircle < point.exactValue) : (Arc.mk point point).points = {point.exactValue} := by
  have normal := @points_of_normal ⟨point, point⟩ above (le_refl _) isAngle.le_halfCircle
  rw [normal, Set.Icc_self]

theorem points_of_inverted (above : -halfCircle < arc.hi.exactValue)
    (order : arc.hi.exactValue < arc.lo.exactValue) :
    arc.points = circle \ Set.Ioo arc.hi.exactValue arc.lo.exactValue := by
  ext point
  simp only [mem_points_iff, Spans, if_neg (not_le.mpr order), Set.mem_sdiff, Set.mem_Ioo,
    not_and_or, not_lt]
  have notEmpty := ne_of_gt above
  tauto

theorem Valid.gap_subset_circle (valid : arc.Valid) (above : -halfCircle < arc.hi.exactValue) :
    Set.Ioo arc.hi.exactValue arc.lo.exactValue ⊆ circle := by
  obtain ⟨⟨-, loTo⟩, -⟩ := valid.exactEnds
  rintro point ⟨beyond, before⟩
  exact ⟨by linarith, by linarith⟩

theorem Valid.mem_points_of_wraps (valid : arc.Valid) (wraps : arc.Wraps) {point : ℚ}
    (above : -halfCircle < point) (below : point ≤ arc.hi.exactValue) : point ∈ arc.points := by
  obtain ⟨-, ⟨-, hiTo⟩, -⟩ := valid.exactEnds
  have member : point ∈ circle := ⟨above, by linarith⟩
  obtain ⟨hiAbove, order | loAt⟩ := wraps
  · rw [points_of_inverted hiAbove order]
    exact ⟨member, fun inGap => absurd inGap.1 (not_lt.mpr below)⟩
  · rw [points_of_full loAt (valid.hi_exact_of_lo loAt)]
    exact member

theorem Valid.exists_mem_points_lt (valid : arc.Valid) (wraps : arc.Wraps) {bound : ℚ}
    (above : -halfCircle < bound) : ∃ point ∈ arc.points, point < bound := by
  obtain ⟨point, beyond, before⟩ := exists_between (lt_min above wraps.1)
  rw [lt_min_iff] at before
  exact ⟨point, valid.mem_points_of_wraps wraps beyond (le_of_lt before.2), before.1⟩

theorem Valid.halfCircle_mem_points (valid : arc.Valid) (wraps : arc.Wraps) :
    halfCircle ∈ arc.points := by
  have positive := halfCircle_pos
  have member : halfCircle ∈ circle := ⟨by linarith, le_refl _⟩
  obtain ⟨⟨-, loTo⟩, -⟩ := valid.exactEnds
  obtain ⟨hiAbove, order | loAt⟩ := wraps
  · rw [points_of_inverted hiAbove order]
    exact ⟨member, fun inGap => absurd inGap.2 (not_lt.mpr loTo)⟩
  · rw [points_of_full loAt (valid.hi_exact_of_lo loAt)]
    exact member

theorem Valid.points_eq_empty_iff (valid : arc.Valid) : arc.points = ∅ ↔
    arc.lo.exactValue = halfCircle ∧ arc.hi.exactValue = -halfCircle := by
  have positive := halfCircle_pos
  constructor
  · intro vanishes
    have noPoint (point : ℚ) : point ∉ arc.points := by
      rw [vanishes]
      exact Set.notMem_empty point
    cases valid.shape with
    | empty loAt hiAt => exact ⟨loAt, hiAt⟩
    | full loAt hiAt =>
      exact absurd (valid.halfCircle_mem_points ⟨by linarith, .inr loAt⟩) (noPoint _)
    | normal above order below =>
      rw [points_of_normal above order below] at noPoint
      exact absurd (Set.left_mem_Icc.mpr order) (noPoint _)
    | inverted above order below =>
      exact absurd (valid.halfCircle_mem_points ⟨above, .inl order⟩) (noPoint _)
  · rintro ⟨loAt, hiAt⟩
    exact points_of_empty loAt hiAt

theorem Valid.isEmpty_iff_points (valid : arc.Valid) : arc.isEmpty = true ↔ arc.points = ∅ := by
  rw [valid.isEmpty_iff, valid.points_eq_empty_iff]

theorem Valid.complement (valid : arc.Valid) : arc.complement.Valid := by
  unfold Arc.complement
  split
  · exact full_valid
  · exact ⟨valid.hi_isAngle, valid.lo_isAngle, valid.lo_of_hi, valid.hi_of_lo⟩

theorem Valid.complement_ends (valid : arc.Valid) :
    arc.complement.lo.exactValue =
        (if arc.lo.exactValue = arc.hi.exactValue then -halfCircle else arc.hi.exactValue) ∧
      arc.complement.hi.exactValue =
        (if arc.lo.exactValue = arc.hi.exactValue then halfCircle else arc.lo.exactValue) := by
  unfold Arc.complement
  by_cases single : arc.lo.exactValue = arc.hi.exactValue
  · rw [if_pos (valid.sameEnds_iff.mpr single), if_pos single, if_pos single]
    exact ⟨Value.exactValue_minusHalfTurn, Value.exactValue_halfTurn⟩
  · rw [if_neg (mt valid.sameEnds_iff.mp single), if_neg single, if_neg single]
    exact ⟨rfl, rfl⟩

/-- The interior of an arc is what its complement leaves. Of a single point the complement is the
full circle and the interior is empty. -/
theorem Valid.interiorPoints_eq (valid : arc.Valid) :
    arc.interiorPoints = circle \ arc.complement.points := by
  have ends := valid.exactEnds
  have positive := halfCircle_pos
  obtain ⟨complementLo, complementHi⟩ := valid.complement_ends
  ext point
  rw [Set.mem_sdiff, mem_points_iff, Spans, complementLo, complementHi]
  simp only [interiorPoints, Set.mem_ofPred_eq, circle, Set.mem_Ioc]
  grind

theorem Valid.interiorPoints_subset (valid : arc.Valid) : arc.interiorPoints ⊆ arc.points := by
  have ends := valid.exactEnds
  rintro point ⟨onCircle, inside⟩
  refine ⟨onCircle, ?_⟩
  have range := onCircle
  simp only [circle, Set.mem_Ioc] at range
  grind

end Arc

end CircularArc
