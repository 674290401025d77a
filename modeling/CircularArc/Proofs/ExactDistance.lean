import CircularArc.Proofs.CircularOrder

/-!
# Exact distances from an arc

A point outside an arc is nearest to one of the two ends, and the directed distance of an arc from
another is attained at the middle of the rest of the circle, if the first arc holds it, else at an end
of the first arc. A point that is only nearly the middle serves as well, up to how far it is off.
-/

set_option autoImplicit false

namespace CircularArc

theorem circularDistance_self (point : ℚ) : circularDistance point point = 0 := by
  rw [circularDistance, forwardGap_self, min_self]

theorem circularDistance_nonneg {first second : ℚ} (firstOn : first ∈ circle)
    (secondOn : second ∈ circle) : 0 ≤ circularDistance first second :=
  le_min (forwardGap_nonneg firstOn secondOn) (forwardGap_nonneg secondOn firstOn)

theorem isDistanceTo_zero {points : Set ℚ} (onCircle : points ⊆ circle) {point : ℚ}
    (held : point ∈ points) : IsDistanceTo points point 0 := by
  refine ⟨⟨point, held, (circularDistance_self point).symm⟩, ?_⟩
  rintro candidate ⟨target, targetHeld, rfl⟩
  exact circularDistance_nonneg (onCircle held) (onCircle targetHeld)

theorem isDirectedDistance_zero {first second : Set ℚ} (onCircle : second ⊆ circle)
    (within : first ⊆ second) : IsDirectedDistance first second 0 := by
  by_cases empty : first = ∅
  · exact .inl ⟨empty, rfl⟩
  · obtain ⟨source, held⟩ := Set.nonempty_iff_ne_empty.mpr empty
    refine .inr (.inr ⟨empty, Set.nonempty_iff_ne_empty.mp ⟨source, within held⟩, ?_, ?_⟩)
    · rintro candidate ⟨target, targetHeld, isDistance⟩
      exact le_of_eq (isDistance.unique (isDistanceTo_zero onCircle (within targetHeld)))
    · intro limit isBound
      exact isBound ⟨source, held, isDistanceTo_zero onCircle (within held)⟩

namespace Arc

/-- The exact length of what an arc leaves of the circle. -/
def restLength (arc : Arc) : ℚ := 2 * halfCircle - arc.exactLength

/-- The exact distance of a point of the circle from an arc that is neither empty nor full. -/
def distanceFrom (arc : Arc) (point : ℚ) : ℚ :=
  if forwardGap arc.lo.exactValue point ≤ arc.exactLength then 0
  else min (forwardGap arc.hi.exactValue point) (forwardGap point arc.lo.exactValue)

/-- A point that divides what an arc leaves of the circle into two parts of nearly the same length. -/
structure IsMiddle (arc : Arc) (tolerance point : ℚ) : Prop where
  onCircle : point ∈ circle
  parts : forwardGap arc.hi.exactValue point + forwardGap point arc.lo.exactValue = arc.restLength
  after : forwardGap arc.hi.exactValue point ≤ forwardGap point arc.lo.exactValue + tolerance
  before : forwardGap point arc.lo.exactValue ≤ forwardGap arc.hi.exactValue point + tolerance

/-- The largest distance of a point of the first arc from the second arc. -/
structure Farthest (arc other : Arc) (distance : ℚ) : Prop where
  bound : ∀ point ∈ arc.points, other.distanceFrom point ≤ distance
  attained : ∃ point ∈ arc.points, other.distanceFrom point = distance

/-- How far the ends of an arc reach into what another arc leaves of the circle, up to a point: the
upper end into what comes before the point, the lower end into what comes after it. -/
def endReach (arc other : Arc) (point : ℚ) : ℚ :=
  max
    (if forwardGap other.hi.exactValue arc.hi.exactValue ≤ forwardGap other.hi.exactValue point then
      forwardGap other.hi.exactValue arc.hi.exactValue else 0)
    (if forwardGap arc.lo.exactValue other.lo.exactValue ≤ forwardGap point other.lo.exactValue then
      forwardGap arc.lo.exactValue other.lo.exactValue else 0)

variable {arc other : Arc} {point tolerance distance : ℚ}

namespace Proper

variable (proper : arc.Proper)
include proper

theorem exactLength_nonneg : 0 ≤ arc.exactLength := forwardGap_nonneg proper.lo_mem proper.hi_mem

theorem restLength_pos : 0 < arc.restLength :=
  sub_pos.mpr (forwardGap_lt proper.lo_mem proper.hi_mem)

theorem distanceFrom_of_mem (held : point ∈ arc.points) : arc.distanceFrom point = 0 :=
  if_pos (proper.mem_points_iff.mp held).2

theorem distanceFrom_of_notMem (onCircle : point ∈ circle) (left : point ∉ arc.points) :
    arc.distanceFrom point =
      min (forwardGap arc.hi.exactValue point) (forwardGap point arc.lo.exactValue) := by
  rw [proper.mem_points_iff, and_iff_right onCircle] at left
  exact if_neg left

theorem parts_of_notMem (onCircle : point ∈ circle) (left : point ∉ arc.points) :
    0 < forwardGap arc.hi.exactValue point ∧ 0 < forwardGap point arc.lo.exactValue ∧
      forwardGap arc.hi.exactValue point + forwardGap point arc.lo.exactValue =
        arc.restLength := by
  obtain ⟨nonneg, -, beyond, short⟩ := proper.offsets proper.hi_mem_points onCircle left
  have atLo := forwardGap_self arc.lo.exactValue
  have after := forwardGap_from_of_le _ proper.hi_mem onCircle (le_of_lt beyond)
  have before := forwardGap_from_of_lt arc.lo.exactValue onCircle proper.lo_mem
    (by linarith)
  rw [after, before, atLo, restLength, exactLength]
  refine ⟨by linarith, by linarith, by ring⟩

theorem gaps_of_mem (held : point ∈ arc.points) :
    (forwardGap arc.hi.exactValue point = 0 ∨
        arc.restLength ≤ forwardGap arc.hi.exactValue point) ∧
      (forwardGap point arc.lo.exactValue = 0 ∨
        arc.restLength ≤ forwardGap point arc.lo.exactValue) := by
  obtain ⟨onCircle, near⟩ := proper.mem_points_iff.mp held
  have nonneg := forwardGap_nonneg proper.lo_mem onCircle
  have atLo := forwardGap_self arc.lo.exactValue
  rw [restLength]
  rw [exactLength] at near ⊢
  constructor
  · rcases lt_or_eq_of_le near with before | atHi
    · rw [forwardGap_from_of_lt _ proper.hi_mem onCircle before]
      exact .inr (by linarith)
    · rw [forwardGap_from_of_le _ proper.hi_mem onCircle (le_of_eq atHi.symm), atHi]
      exact .inl (sub_self _)
  · rcases lt_or_eq_of_le nonneg with beyond | same
    · rw [forwardGap_from_of_lt _ onCircle proper.lo_mem (atLo.trans_lt beyond), atLo]
      exact .inr (by linarith)
    · rw [forwardGap_from_of_le _ onCircle proper.lo_mem (by linarith), atLo, ← same]
      exact .inl (sub_self 0)

theorem distanceFrom_nonneg (onCircle : point ∈ circle) : 0 ≤ arc.distanceFrom point := by
  by_cases held : point ∈ arc.points
  · exact le_of_eq (proper.distanceFrom_of_mem held).symm
  · rw [proper.distanceFrom_of_notMem onCircle held]
    exact le_min (forwardGap_nonneg proper.hi_mem onCircle)
      (forwardGap_nonneg onCircle proper.lo_mem)

theorem distanceFrom_le (onCircle : point ∈ circle) :
    2 * arc.distanceFrom point ≤ arc.restLength := by
  have positive := proper.restLength_pos
  by_cases held : point ∈ arc.points
  · rw [proper.distanceFrom_of_mem held]
    linarith
  · obtain ⟨-, -, parts⟩ := proper.parts_of_notMem onCircle held
    rw [proper.distanceFrom_of_notMem onCircle held]
    have first := min_le_left (forwardGap arc.hi.exactValue point)
      (forwardGap point arc.lo.exactValue)
    have second := min_le_right (forwardGap arc.hi.exactValue point)
      (forwardGap point arc.lo.exactValue)
    linarith

theorem isDistanceTo (onCircle : point ∈ circle) :
    IsDistanceTo arc.points point (arc.distanceFrom point) := by
  by_cases held : point ∈ arc.points
  · rw [proper.distanceFrom_of_mem held]
    exact isDistanceTo_zero points_subset_circle held
  · obtain ⟨afterPos, beforePos, parts⟩ := proper.parts_of_notMem onCircle held
    have loApart : point ≠ arc.lo.exactValue := fun same => held (same ▸ proper.lo_mem_points)
    have hiApart : point ≠ arc.hi.exactValue := fun same => held (same ▸ proper.hi_mem_points)
    have loTurn := forwardGap_add_swap loApart
    have hiTurn := forwardGap_add_swap hiApart
    have nonneg := proper.exactLength_nonneg
    rw [proper.distanceFrom_of_notMem onCircle held]
    rw [restLength] at parts
    constructor
    · rcases le_total (forwardGap arc.hi.exactValue point)
        (forwardGap point arc.lo.exactValue) with hiNearer | loNearer
      · refine ⟨arc.hi.exactValue, proper.hi_mem_points, ?_⟩
        rw [circularDistance, min_eq_left hiNearer, min_eq_right (by linarith)]
      · refine ⟨arc.lo.exactValue, proper.lo_mem_points, ?_⟩
        rw [circularDistance, min_eq_right loNearer, min_eq_left (by linarith)]
    · rintro candidate ⟨target, targetHeld, rfl⟩
      obtain ⟨targetFrom, targetTo, beyond, short⟩ := proper.offsets targetHeld onCircle held
      have atLo := forwardGap_self arc.lo.exactValue
      have toTarget := forwardGap_from_of_lt _ onCircle targetHeld.1 (by linarith)
      have fromTarget := forwardGap_from_of_le _ targetHeld.1 onCircle (by linarith)
      have toLo := forwardGap_from_of_lt arc.lo.exactValue onCircle proper.lo_mem
        (by linarith)
      have fromHi := forwardGap_from_of_le _ proper.hi_mem onCircle (le_of_lt beyond)
      rw [circularDistance, min_comm]
      exact min_le_min (by linarith) (by linarith)

theorem exists_isMiddle : ∃ middle, arc.IsMiddle 0 middle := by
  have positive := proper.restLength_pos
  have nonneg := proper.exactLength_nonneg
  have turn : arc.restLength ≤ 2 * halfCircle := sub_le_self _ nonneg
  obtain ⟨hiAbove, hiBelow⟩ := proper.hi_mem
  obtain ⟨middle, onCircle, halfway⟩ : ∃ middle ∈ circle,
      forwardGap arc.hi.exactValue middle = arc.restLength / 2 := by
    rcases le_or_gt (arc.hi.exactValue + arc.restLength / 2) halfCircle with inside | beyond
    · refine ⟨arc.hi.exactValue + arc.restLength / 2, ⟨by linarith, inside⟩, ?_⟩
      rw [forwardGap_of_le (by linarith)]
      ring
    · refine ⟨arc.hi.exactValue + arc.restLength / 2 - 2 * halfCircle,
        ⟨by linarith, by linarith⟩, ?_⟩
      rw [forwardGap_of_lt (by linarith)]
      ring
  have outside : middle ∉ arc.points := by
    intro held
    obtain ⟨atHi | beyond, -⟩ := proper.gaps_of_mem held <;> linarith
  obtain ⟨-, -, parts⟩ := proper.parts_of_notMem onCircle outside
  exact ⟨middle, onCircle, parts, by linarith, by linarith⟩

end Proper

namespace IsMiddle

variable (middle : other.IsMiddle tolerance point)
include middle

theorem tolerance_nonneg : 0 ≤ tolerance := by
  have after := middle.after
  have before := middle.before
  linarith

theorem restLength_le (proper : other.Proper) :
    other.restLength ≤ 2 * other.distanceFrom point + tolerance := by
  obtain ⟨onCircle, parts, after, before⟩ := middle
  by_cases held : point ∈ other.points
  · have afterFrom := forwardGap_nonneg proper.hi_mem onCircle
    have beforeFrom := forwardGap_nonneg onCircle proper.lo_mem
    rw [proper.distanceFrom_of_mem held]
    obtain ⟨atHi | beyond, -⟩ := proper.gaps_of_mem held <;> linarith
  · rw [proper.distanceFrom_of_notMem onCircle held]
    rcases min_choice (forwardGap other.hi.exactValue point)
      (forwardGap point other.lo.exactValue) with first | second
    · rw [first]
      linarith
    · rw [second]
      linarith

theorem after_le_distanceFrom (proper : other.Proper) {source : ℚ} (onCircle : source ∈ circle)
    (inFront : forwardGap other.hi.exactValue source ≤ forwardGap other.hi.exactValue point) :
    forwardGap other.hi.exactValue source ≤ other.distanceFrom source + tolerance := by
  have nonneg := middle.tolerance_nonneg
  obtain ⟨middleOn, parts, after, -⟩ := middle
  have beforeFrom := forwardGap_nonneg middleOn proper.lo_mem
  by_cases held : source ∈ other.points
  · rw [proper.distanceFrom_of_mem held]
    obtain ⟨atHi | beyond, -⟩ := proper.gaps_of_mem held <;> linarith
  · obtain ⟨-, -, sourceParts⟩ := proper.parts_of_notMem onCircle held
    rw [proper.distanceFrom_of_notMem onCircle held, ← min_add_add_right]
    exact le_min (by linarith) (by linarith)

theorem before_le_distanceFrom (proper : other.Proper) {source : ℚ} (onCircle : source ∈ circle)
    (behind : forwardGap source other.lo.exactValue ≤ forwardGap point other.lo.exactValue) :
    forwardGap source other.lo.exactValue ≤ other.distanceFrom source + tolerance := by
  have nonneg := middle.tolerance_nonneg
  obtain ⟨middleOn, parts, -, before⟩ := middle
  have afterFrom := forwardGap_nonneg proper.hi_mem middleOn
  by_cases held : source ∈ other.points
  · rw [proper.distanceFrom_of_mem held]
    obtain ⟨-, atLo | beyond⟩ := proper.gaps_of_mem held <;> linarith
  · obtain ⟨-, -, sourceParts⟩ := proper.parts_of_notMem onCircle held
    rw [proper.distanceFrom_of_notMem onCircle held, ← min_add_add_right]
    exact le_min (by linarith) (by linarith)

theorem distanceFrom_le_endReach (proper : other.Proper) (arcProper : arc.Proper)
    (outside : point ∉ arc.points) {source : ℚ} (held : source ∈ arc.points) :
    other.distanceFrom source ≤ arc.endReach other point := by
  have onCircle := held.1
  by_cases shared : source ∈ other.points
  · rw [proper.distanceFrom_of_mem shared]
    refine le_max_of_le_left ?_
    split
    · exact forwardGap_nonneg proper.hi_mem arcProper.hi_mem
    · exact le_refl 0
  · obtain ⟨-, -, sourceParts⟩ := proper.parts_of_notMem onCircle shared
    rw [proper.distanceFrom_of_notMem onCircle shared]
    rcases le_or_gt (forwardGap other.hi.exactValue source)
      (forwardGap other.hi.exactValue point) with inFront | behind
    · obtain ⟨reaches, stops⟩ :=
        arcProper.forwardGap_le_hi held middle.onCircle outside proper.hi_mem inFront
      refine le_max_of_le_left ?_
      rw [if_pos (le_of_lt stops)]
      exact min_le_of_left_le reaches
    · have parts := middle.parts
      obtain ⟨reaches, stops⟩ :=
        arcProper.forwardGap_le_lo held middle.onCircle outside proper.lo_mem (by linarith)
      refine le_max_of_le_right ?_
      rw [if_pos (le_of_lt stops)]
      exact min_le_of_right_le reaches

theorem endReach_le (proper : other.Proper) (arcProper : arc.Proper) :
    arc.endReach other point ≤
      max (other.distanceFrom arc.hi.exactValue) (other.distanceFrom arc.lo.exactValue) +
        tolerance := by
  have nonneg := middle.tolerance_nonneg
  have hiNonneg := proper.distanceFrom_nonneg arcProper.hi_mem
  have loNonneg := proper.distanceFrom_nonneg arcProper.lo_mem
  rw [← max_add_add_right]
  refine max_le_max ?_ ?_
  · split
    · exact middle.after_le_distanceFrom proper arcProper.hi_mem ‹_›
    · linarith
  · split
    · exact middle.before_le_distanceFrom proper arcProper.lo_mem ‹_›
    · linarith

theorem near_of_mem (proper : other.Proper) (held : point ∈ arc.points)
    (farthest : arc.Farthest other distance) :
    |forwardGap other.hi.exactValue point - distance| ≤ tolerance := by
  have least := middle.restLength_le proper
  have atMiddle := farthest.bound point held
  obtain ⟨source, sourceHeld, attained⟩ := farthest.attained
  have most := proper.distanceFrom_le sourceHeld.1
  rw [attained] at most
  obtain ⟨-, parts, after, before⟩ := middle
  rw [abs_le]
  constructor <;> linarith

theorem near_of_outside (proper : other.Proper) (arcProper : arc.Proper)
    (outside : point ∉ arc.points ∨ point = arc.hi.exactValue)
    (farthest : arc.Farthest other distance) :
    |arc.endReach other point - distance| ≤ tolerance := by
  have nonneg := middle.tolerance_nonneg
  have least := middle.endReach_le proper arcProper
  have ends := max_le (farthest.bound _ arcProper.hi_mem_points)
    (farthest.bound _ arcProper.lo_mem_points)
  obtain ⟨source, sourceHeld, attained⟩ := farthest.attained
  have most : distance ≤ arc.endReach other point + tolerance := by
    rcases outside with left | atHi
    · have reached := middle.distanceFrom_le_endReach proper arcProper left sourceHeld
      linarith
    · have reached : forwardGap other.hi.exactValue point ≤ arc.endReach other point := by
        rw [atHi]
        exact le_max_of_le_left (le_of_eq (if_pos (le_refl _)).symm)
      have limit := proper.distanceFrom_le sourceHeld.1
      obtain ⟨-, parts, after, before⟩ := middle
      linarith
  rw [abs_le]
  constructor <;> linarith

end IsMiddle

/-- Some point of an arc is furthest away: the middle, or one of the two ends. -/
theorem Valid.exists_farthest (valid : arc.Valid) (nonempty : arc.points ≠ ∅)
    (proper : other.Proper) : ∃ distance, arc.Farthest other distance := by
  obtain ⟨center, middle⟩ := proper.exists_isMiddle
  by_cases held : center ∈ arc.points
  · have least := middle.restLength_le proper
    refine ⟨_, fun source sourceHeld => ?_, center, held, rfl⟩
    have most := proper.distanceFrom_le sourceHeld.1
    linarith
  · have arcProper := valid.proper_of_points nonempty fun whole => held (whole ▸ middle.onCircle)
    have reach := middle.endReach_le proper arcProper
    refine ⟨max (other.distanceFrom arc.hi.exactValue) (other.distanceFrom arc.lo.exactValue),
      fun source sourceHeld => ?_, ?_⟩
    · have bound := middle.distanceFrom_le_endReach proper arcProper held sourceHeld
      linarith
    · rcases max_choice (other.distanceFrom arc.hi.exactValue)
        (other.distanceFrom arc.lo.exactValue) with atHi | atLo
      · exact ⟨_, arcProper.hi_mem_points, atHi.symm⟩
      · exact ⟨_, arcProper.lo_mem_points, atLo.symm⟩

theorem Farthest.isDirectedDistance (farthest : arc.Farthest other distance)
    (proper : other.Proper) : IsDirectedDistance arc.points other.points distance := by
  obtain ⟨bound, source, held, attained⟩ := farthest
  refine .inr (.inr ⟨Set.nonempty_iff_ne_empty.mp ⟨source, held⟩, proper.points_ne_empty, ?_, ?_⟩)
  · rintro candidate ⟨target, targetHeld, isDistance⟩
    rw [isDistance.unique (proper.isDistanceTo targetHeld.1)]
    exact bound target targetHeld
  · intro limit isBound
    rw [← attained]
    exact isBound ⟨source, held, proper.isDistanceTo held.1⟩

end Arc

end CircularArc
