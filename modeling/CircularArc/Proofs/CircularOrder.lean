import CircularArc.Proofs.Shape
import Mathlib.Tactic.Ring

/-!
# Going round the circle

Forward gaps do not depend on where the circle is cut, so whatever is said of a few points can be
said with all of them measured from one of them. From its lower end on, an arc holds the points up to
its upper end, and the points outside it come after these.
-/

set_option autoImplicit false

namespace CircularArc

section Gaps

variable {first second : ℚ}

theorem forwardGap_of_le (order : first ≤ second) : forwardGap first second = second - first :=
  if_pos order

theorem forwardGap_of_lt (order : second < first) :
    forwardGap first second = second - first + 2 * halfCircle :=
  if_neg (not_le.mpr order)

theorem forwardGap_self (point : ℚ) : forwardGap point point = 0 := by
  rw [forwardGap_of_le (le_refl point), sub_self]

theorem forwardGap_nonneg (firstOn : first ∈ circle) (secondOn : second ∈ circle) :
    0 ≤ forwardGap first second := by
  obtain ⟨firstAbove, firstBelow⟩ := firstOn
  obtain ⟨secondAbove, secondBelow⟩ := secondOn
  rcases le_or_gt first second with order | order
  · rw [forwardGap_of_le order]
    linarith
  · rw [forwardGap_of_lt order]
    linarith

theorem forwardGap_lt (firstOn : first ∈ circle) (secondOn : second ∈ circle) :
    forwardGap first second < 2 * halfCircle := by
  obtain ⟨firstAbove, firstBelow⟩ := firstOn
  obtain ⟨secondAbove, secondBelow⟩ := secondOn
  rcases le_or_gt first second with order | order
  · rw [forwardGap_of_le order]
    linarith
  · rw [forwardGap_of_lt order]
    linarith

theorem forwardGap_eq_zero_iff (firstOn : first ∈ circle) (secondOn : second ∈ circle) :
    forwardGap first second = 0 ↔ first = second := by
  constructor
  · intro none
    obtain ⟨firstAbove, firstBelow⟩ := firstOn
    obtain ⟨secondAbove, secondBelow⟩ := secondOn
    rcases le_or_gt first second with order | order
    · rw [forwardGap_of_le order] at none
      linarith
    · rw [forwardGap_of_lt order] at none
      linarith
  · rintro rfl
    exact forwardGap_self first

theorem forwardGap_add_swap (distinct : first ≠ second) :
    forwardGap first second + forwardGap second first = 2 * halfCircle := by
  rcases lt_or_gt_of_ne distinct with order | order
  · rw [forwardGap_of_le (le_of_lt order), forwardGap_of_lt order]
    ring
  · rw [forwardGap_of_lt order, forwardGap_of_le (le_of_lt order)]
    ring

theorem forwardGap_add_right (shift : ℚ) :
    forwardGap (first + shift) (second + shift) = forwardGap first second := by
  unfold forwardGap
  simp only [add_le_add_iff_right, add_sub_add_right_eq_sub]

theorem forwardGap_rebase (origin : ℚ) (firstOn : first ∈ circle) (secondOn : second ∈ circle) :
    forwardGap first second =
      forwardGap (forwardGap origin first) (forwardGap origin second) := by
  obtain ⟨firstAbove, firstBelow⟩ := firstOn
  obtain ⟨secondAbove, secondBelow⟩ := secondOn
  rcases le_or_gt origin first with firstBeyond | firstBefore
  · rcases le_or_gt origin second with secondBeyond | secondBefore
    · rw [forwardGap_of_le firstBeyond, forwardGap_of_le secondBeyond, sub_eq_add_neg,
        sub_eq_add_neg, forwardGap_add_right]
    · rw [forwardGap_of_le firstBeyond, forwardGap_of_lt secondBefore, forwardGap_of_lt (by linarith),
        forwardGap_of_le (by linarith)]
      ring
  · rcases le_or_gt origin second with secondBeyond | secondBefore
    · rw [forwardGap_of_lt firstBefore, forwardGap_of_le secondBeyond, forwardGap_of_le (by linarith),
        forwardGap_of_lt (by linarith)]
      ring
    · rw [forwardGap_of_lt firstBefore, forwardGap_of_lt secondBefore, forwardGap_add_right,
        sub_eq_add_neg, sub_eq_add_neg, forwardGap_add_right]

theorem forwardGap_from_of_le (origin : ℚ) (firstOn : first ∈ circle) (secondOn : second ∈ circle)
    (order : forwardGap origin first ≤ forwardGap origin second) :
    forwardGap first second = forwardGap origin second - forwardGap origin first := by
  rw [forwardGap_rebase origin firstOn secondOn, forwardGap_of_le order]

theorem forwardGap_from_of_lt (origin : ℚ) (firstOn : first ∈ circle) (secondOn : second ∈ circle)
    (order : forwardGap origin second < forwardGap origin first) :
    forwardGap first second =
      forwardGap origin second - forwardGap origin first + 2 * halfCircle := by
  rw [forwardGap_rebase origin firstOn secondOn, forwardGap_of_lt order]

end Gaps

namespace Arc

/-- Both ends are points of the circle: the arc is neither empty nor full. -/
structure Proper (arc : Arc) : Prop where
  lo_mem : arc.lo.exactValue ∈ circle
  hi_mem : arc.hi.exactValue ∈ circle

variable {arc : Arc} {point outside target : ℚ}

theorem Valid.proper (valid : arc.Valid)
    (notEmpty : ¬ (arc.lo.exactValue = halfCircle ∧ arc.hi.exactValue = -halfCircle))
    (notFull : ¬ (arc.lo.exactValue = -halfCircle ∧ arc.hi.exactValue = halfCircle)) :
    arc.Proper := by
  cases valid.shape with
  | empty loAt hiAt => exact absurd ⟨loAt, hiAt⟩ notEmpty
  | full loAt hiAt => exact absurd ⟨loAt, hiAt⟩ notFull
  | normal above order below =>
    exact ⟨⟨above, le_trans order below⟩, lt_of_lt_of_le above order, below⟩
  | inverted above order below =>
    exact ⟨⟨lt_trans above order, below⟩, above, le_trans (le_of_lt order) below⟩

theorem Valid.proper_of_points (valid : arc.Valid) (nonempty : arc.points ≠ ∅)
    (notFull : arc.points ≠ circle) : arc.Proper :=
  valid.proper (fun ends => nonempty (points_of_empty ends.1 ends.2))
    (fun ends => notFull (points_of_full ends.1 ends.2))

theorem Valid.proper_of_isEmpty_of_isFull (valid : arc.Valid) (nonempty : arc.isEmpty = false)
    (notFull : arc.isFull = false) : arc.Proper := by
  rw [← Bool.not_eq_true, valid.isEmpty_iff] at nonempty
  rw [← Bool.not_eq_true, valid.isFull_iff] at notFull
  exact valid.proper nonempty notFull

namespace Proper

variable (proper : arc.Proper)
include proper

/-- An arc holds what lies no further from its lower end than its upper end. -/
theorem mem_points_iff : point ∈ arc.points ↔
    point ∈ circle ∧ forwardGap arc.lo.exactValue point ≤ arc.exactLength := by
  obtain ⟨⟨loAbove, loBelow⟩, ⟨hiAbove, hiBelow⟩⟩ := proper
  rw [Arc.mem_points_iff]
  refine and_congr_right fun onCircle => ?_
  obtain ⟨above, below⟩ := onCircle
  unfold Spans exactLength
  rcases le_or_gt arc.lo.exactValue arc.hi.exactValue with order | order
  · rw [if_pos order, forwardGap_of_le order]
    rcases le_or_gt arc.lo.exactValue point with beyond | before
    · rw [forwardGap_of_le beyond, and_iff_right beyond]
      exact sub_le_sub_iff_right _ |>.symm
    · rw [forwardGap_of_lt before]
      constructor
      · rintro ⟨beyond, -⟩
        linarith
      · intro near
        linarith
  · have notEmpty : ¬ (arc.lo.exactValue = halfCircle ∧ arc.hi.exactValue = -halfCircle) :=
      fun ends => ne_of_gt hiAbove ends.2
    rw [if_neg (not_le.mpr order), and_iff_right notEmpty, forwardGap_of_lt order]
    rcases le_or_gt arc.lo.exactValue point with beyond | before
    · rw [forwardGap_of_le beyond]
      exact iff_of_true (.inl beyond) (by linarith)
    · rw [forwardGap_of_lt before, or_iff_right (not_le.mpr before), add_le_add_iff_right,
        sub_le_sub_iff_right]

theorem mem_points_iff_to_hi : point ∈ arc.points ↔
    point ∈ circle ∧ forwardGap point arc.hi.exactValue ≤ arc.exactLength := by
  rw [proper.mem_points_iff]
  refine and_congr_right fun onCircle => ?_
  have nonneg := forwardGap_nonneg proper.lo_mem onCircle
  have short := forwardGap_lt proper.lo_mem onCircle
  unfold exactLength
  rcases le_or_gt (forwardGap arc.lo.exactValue point)
    (forwardGap arc.lo.exactValue arc.hi.exactValue) with inside | beyond
  · rw [forwardGap_from_of_le _ onCircle proper.hi_mem inside]
    exact iff_of_true inside (by linarith)
  · rw [forwardGap_from_of_lt _ onCircle proper.hi_mem beyond]
    exact iff_of_false (not_le.mpr beyond) (by linarith)

theorem lo_mem_points : arc.lo.exactValue ∈ arc.points := by
  rw [proper.mem_points_iff, forwardGap_self]
  exact ⟨proper.lo_mem, forwardGap_nonneg proper.lo_mem proper.hi_mem⟩

theorem hi_mem_points : arc.hi.exactValue ∈ arc.points :=
  proper.mem_points_iff.mpr ⟨proper.hi_mem, le_refl _⟩

theorem points_ne_empty : arc.points ≠ ∅ :=
  Set.nonempty_iff_ne_empty.mp ⟨_, proper.lo_mem_points⟩

theorem forwardGap_le_of_lt_hi (held : point ∈ arc.points) (targetOn : target ∈ circle)
    (sooner : forwardGap point target < forwardGap arc.hi.exactValue target) :
    forwardGap point target ≤ forwardGap arc.lo.exactValue target ∧
      forwardGap arc.lo.exactValue target ≤ forwardGap arc.hi.exactValue target := by
  obtain ⟨onCircle, pointTo⟩ := proper.mem_points_iff.mp held
  rw [exactLength] at pointTo
  have pointFrom := forwardGap_nonneg proper.lo_mem onCircle
  have hiTo := forwardGap_lt proper.lo_mem proper.hi_mem
  rcases le_or_gt (forwardGap arc.lo.exactValue point) (forwardGap arc.lo.exactValue target)
    with ahead | passed
  · rw [forwardGap_from_of_le _ onCircle targetOn ahead] at sooner ⊢
    rcases le_or_gt (forwardGap arc.lo.exactValue arc.hi.exactValue)
      (forwardGap arc.lo.exactValue target) with outside | inside
    · rw [forwardGap_from_of_le _ proper.hi_mem targetOn outside] at sooner
      linarith
    · rw [forwardGap_from_of_lt _ proper.hi_mem targetOn inside]
      constructor <;> linarith
  · rw [forwardGap_from_of_lt _ onCircle targetOn passed,
      forwardGap_from_of_lt _ proper.hi_mem targetOn (by linarith)] at sooner
    linarith

section Outside

variable (held : point ∈ arc.points) (outsideOn : outside ∈ circle) (left : outside ∉ arc.points)
include held outsideOn left

theorem offsets : 0 ≤ forwardGap arc.lo.exactValue point ∧
    forwardGap arc.lo.exactValue point ≤ forwardGap arc.lo.exactValue arc.hi.exactValue ∧
    forwardGap arc.lo.exactValue arc.hi.exactValue < forwardGap arc.lo.exactValue outside ∧
    forwardGap arc.lo.exactValue outside < 2 * halfCircle := by
  obtain ⟨onCircle, near⟩ := proper.mem_points_iff.mp held
  rw [proper.mem_points_iff, and_iff_right outsideOn, not_le] at left
  exact ⟨forwardGap_nonneg proper.lo_mem onCircle, near, left,
    forwardGap_lt proper.lo_mem outsideOn⟩

theorem forwardGap_le_hi (targetOn : target ∈ circle)
    (before : forwardGap target point ≤ forwardGap target outside) :
    forwardGap target point ≤ forwardGap target arc.hi.exactValue ∧
      forwardGap target arc.hi.exactValue < forwardGap target outside := by
  obtain ⟨pointFrom, pointTo, beyond, outsideTo⟩ := proper.offsets held outsideOn left
  have pointOn := held.1
  have hiOn := proper.hi_mem
  rcases le_or_gt (forwardGap arc.lo.exactValue target) (forwardGap arc.lo.exactValue point)
    with passed | ahead
  · rw [forwardGap_from_of_le _ targetOn pointOn passed,
      forwardGap_from_of_le _ targetOn outsideOn (by linarith)] at before ⊢
    rw [forwardGap_from_of_le _ targetOn hiOn (by linarith)]
    constructor <;> linarith
  · rw [forwardGap_from_of_lt _ targetOn pointOn ahead] at before ⊢
    rcases le_or_gt (forwardGap arc.lo.exactValue target) (forwardGap arc.lo.exactValue outside)
      with outsidePassed | outsideAhead
    · rw [forwardGap_from_of_le _ targetOn outsideOn outsidePassed] at before
      linarith
    · rw [forwardGap_from_of_lt _ targetOn outsideOn outsideAhead,
        forwardGap_from_of_lt _ targetOn hiOn (by linarith)]
      constructor <;> linarith

theorem forwardGap_le_lo (targetOn : target ∈ circle)
    (after : forwardGap point target ≤ forwardGap outside target) :
    forwardGap point target ≤ forwardGap arc.lo.exactValue target ∧
      forwardGap arc.lo.exactValue target < forwardGap outside target := by
  obtain ⟨pointFrom, pointTo, beyond, outsideTo⟩ := proper.offsets held outsideOn left
  have targetFrom := forwardGap_nonneg proper.lo_mem targetOn
  have pointOn := held.1
  rcases le_or_gt (forwardGap arc.lo.exactValue point) (forwardGap arc.lo.exactValue target)
    with passed | ahead
  · rw [forwardGap_from_of_le _ pointOn targetOn passed] at after ⊢
    rcases le_or_gt (forwardGap arc.lo.exactValue outside) (forwardGap arc.lo.exactValue target)
      with outsidePassed | outsideAhead
    · rw [forwardGap_from_of_le _ outsideOn targetOn outsidePassed] at after
      linarith
    · rw [forwardGap_from_of_lt _ outsideOn targetOn outsideAhead]
      constructor <;> linarith
  · rw [forwardGap_from_of_lt _ pointOn targetOn ahead,
      forwardGap_from_of_lt _ outsideOn targetOn (by linarith)] at after
    linarith

end Outside

end Proper

end Arc

end CircularArc
