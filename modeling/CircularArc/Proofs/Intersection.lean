import CircularArc.Arc.Algebra
import CircularArc.Proofs.ArcLength
import CircularArc.Proofs.Construction

/-!
# Intersections

What two valid arcs have in common is found in one of six ways, told apart by the ends that lie in
the other arc. Where only one end does, the cover runs between two live ends.
-/

set_option autoImplicit false

namespace CircularArc

namespace Arc

/-- The first arc spans both ends of the second one. -/
def SpansBothEnds (arc other : Arc) : Prop :=
  arc.Spans other.lo.exactValue ∧ arc.Spans other.hi.exactValue

/-- How the overlap of two arcs comes about, and what it is. -/
inductive OverlapCase (arc other : Arc) : Overlap → Prop where
  | vanishing (vanishes : other.points = ∅) : OverlapCase arc other .emptyOperand
  | both {otherLength arcLength : Number} (nonempty : other.points ≠ ∅)
      (loHeld : arc.Spans other.lo.exactValue) (hiHeld : arc.Spans other.hi.exactValue)
      (otherLengthIs : other.length = .ok otherLength)
      (arcLengthIs : arc.length = .ok arcLength) :
      OverlapCase arc other (.cover (if otherLength.lt arcLength then other else arc))
  | fromLo (nonempty : other.points ≠ ∅) (loHeld : arc.Spans other.lo.exactValue)
      (hiFree : ¬ arc.Spans other.hi.exactValue) : OverlapCase arc other (.cover ⟨other.lo, arc.hi⟩)
  | toHi (nonempty : other.points ≠ ∅) (loFree : ¬ arc.Spans other.lo.exactValue)
      (hiHeld : arc.Spans other.hi.exactValue) : OverlapCase arc other (.cover ⟨arc.lo, other.hi⟩)
  | within (loFree : ¬ arc.Spans other.lo.exactValue) (hiFree : ¬ arc.Spans other.hi.exactValue)
      (reached : other.Spans arc.lo.exactValue) : OverlapCase arc other (.cover arc)
  | apart (loFree : ¬ arc.Spans other.lo.exactValue) (hiFree : ¬ arc.Spans other.hi.exactValue)
      (unreached : ¬ other.Spans arc.lo.exactValue) : OverlapCase arc other .disjoint

variable {arc other : Arc} {overlap : Overlap}

/-- Every overlap that is found comes about in one of the listed ways. -/
theorem Valid.overlap_cases (arcValid : arc.Valid) (otherValid : other.Valid)
    (found : arc.overlap other = .ok overlap) : OverlapCase arc other overlap := by
  obtain ⟨loOutcome, loIs, loMeans⟩ := arcValid.holds_decides otherValid.lo_isAngle
  obtain ⟨hiOutcome, hiIs, hiMeans⟩ := arcValid.holds_decides otherValid.hi_isAngle
  obtain ⟨reached, reachedIs, reachedMeans⟩ := otherValid.holds_decides arcValid.lo_isAngle
  unfold Arc.overlap at found
  rw [loIs, hiIs, reachedIs] at found
  simp only [ok_bind, pure_eq_ok] at found
  by_cases vanishing : other.isEmpty = true
  · rw [if_pos vanishing] at found
    cases found
    exact .vanishing (otherValid.isEmpty_iff_points.mp vanishing)
  rw [if_neg vanishing] at found
  have nonempty := mt otherValid.isEmpty_iff_points.mpr vanishing
  by_cases loHeld : loOutcome = true
  · rw [if_pos loHeld] at found
    by_cases hiHeld : hiOutcome = true
    · rw [if_pos hiHeld] at found
      obtain ⟨otherLength, otherLengthIs, found⟩ := exists_of_bind_eq_ok found
      obtain ⟨arcLength, arcLengthIs, found⟩ := exists_of_bind_eq_ok found
      cases found
      exact .both nonempty (loMeans.mp loHeld) (hiMeans.mp hiHeld) otherLengthIs arcLengthIs
    · rw [if_neg hiHeld] at found
      cases found
      exact .fromLo nonempty (loMeans.mp loHeld) (mt hiMeans.mpr hiHeld)
  rw [if_neg loHeld] at found
  have loFree := mt loMeans.mpr loHeld
  by_cases hiHeld : hiOutcome = true
  · rw [if_pos hiHeld] at found
    cases found
    exact .toHi nonempty loFree (hiMeans.mp hiHeld)
  rw [if_neg hiHeld] at found
  have hiFree := mt hiMeans.mpr hiHeld
  by_cases inside : reached = true
  · rw [if_pos inside] at found
    cases found
    exact .within loFree hiFree (reachedMeans.mp inside)
  · rw [if_neg inside] at found
    cases found
    exact .apart loFree hiFree (mt reachedMeans.mpr inside)

theorem OverlapCase.valid (outcome : OverlapCase arc other overlap) (arcValid : arc.Valid)
    (otherValid : other.Valid) : overlap.toArc.Valid := by
  have ends := arcValid.exactEnds
  have otherEnds := otherValid.exactEnds
  have positive := halfCircle_pos
  cases outcome with
  | vanishing | apart => exact empty_valid
  | both =>
    rw [Overlap.toArc]
    split
    · exact otherValid
    · exact arcValid
  | fromLo nonempty loHeld hiFree =>
    rw [Overlap.toArc]
    refine valid_iff.mpr ⟨otherValid.lo_isAngle, arcValid.hi_isAngle, ?_⟩
    rw [Ne, otherValid.points_eq_empty_iff] at nonempty
    unfold Spans at loHeld hiFree
    grind
  | toHi nonempty loFree hiHeld =>
    rw [Overlap.toArc]
    refine valid_iff.mpr ⟨arcValid.lo_isAngle, otherValid.hi_isAngle, ?_⟩
    rw [Ne, otherValid.points_eq_empty_iff] at nonempty
    unfold Spans at loFree hiHeld
    grind
  | within => exact arcValid

theorem points_eq_inter {cover : Arc}
    (spans : ∀ point, -halfCircle < point → point ≤ halfCircle →
      (cover.Spans point ↔ arc.Spans point ∧ other.Spans point)) :
    cover.points = arc.points ∩ other.points := by
  ext point
  rw [Set.mem_inter_iff, mem_points_iff, mem_points_iff, mem_points_iff, ← and_and_left]
  refine and_congr_right fun onCircle => ?_
  rw [mem_circle_iff] at onCircle
  exact spans point onCircle.1 onCircle.2

theorem Valid.exists_overlap (arcValid : arc.Valid) (otherValid : other.Valid) :
    ∃ overlap, arc.overlap other = .ok overlap := by
  obtain ⟨loOutcome, loIs, -⟩ := arcValid.holds_decides otherValid.lo_isAngle
  obtain ⟨hiOutcome, hiIs, -⟩ := arcValid.holds_decides otherValid.hi_isAngle
  obtain ⟨reached, reachedIs, -⟩ := otherValid.holds_decides arcValid.lo_isAngle
  obtain ⟨arcLength, arcLengthIs⟩ := arcValid.exists_length
  obtain ⟨otherLength, otherLengthIs⟩ := otherValid.exists_length
  unfold Arc.overlap
  rw [loIs, hiIs, reachedIs, arcLengthIs, otherLengthIs]
  simp only [ok_bind, pure_eq_ok, ← apply_ite Except.ok]
  exact ⟨_, rfl⟩

theorem OverlapCase.points_eq_inter (outcome : OverlapCase arc other overlap)
    (arcValid : arc.Valid) (otherValid : other.Valid)
    (exact : other.points = ∅ ∨ ¬ arc.SpansBothEnds other) :
    overlap.toArc.points = arc.points ∩ other.points := by
  have ends := arcValid.exactEnds
  have otherEnds := otherValid.exactEnds
  have positive := halfCircle_pos
  have otherEmptyIff := otherValid.points_eq_empty_iff
  cases outcome with
  | vanishing vanishes =>
    rw [vanishes, Set.inter_empty]
    exact empty_points
  | both nonempty loHeld hiHeld =>
    exact absurd exact (not_or.mpr ⟨nonempty, not_not.mpr ⟨loHeld, hiHeld⟩⟩)
  | fromLo nonempty loHeld hiFree =>
    unfold Spans at loHeld hiFree
    refine points_eq_inter fun point above below => ?_
    unfold Overlap.toArc Spans
    grind
  | toHi nonempty loFree hiHeld =>
    unfold Spans at loFree hiHeld
    refine points_eq_inter fun point above below => ?_
    unfold Overlap.toArc Spans
    grind
  | within loFree hiFree reached =>
    unfold Spans at loFree hiFree reached
    refine points_eq_inter fun point above below => ?_
    unfold Overlap.toArc Spans
    grind
  | apart loFree hiFree unreached =>
    unfold Spans at loFree hiFree unreached
    have emptyLo := empty_lo_exact
    have emptyHi := empty_hi_exact
    refine points_eq_inter fun point above below => ?_
    unfold Overlap.toArc Spans
    grind

theorem Valid.intersection_cases (arcValid : arc.Valid) (otherValid : other.Valid) :
    ∃ overlap, arc.intersection other = .ok overlap.toArc ∧ OverlapCase arc other overlap := by
  obtain ⟨overlap, found⟩ := arcValid.exists_overlap otherValid
  refine ⟨overlap, ?_, arcValid.overlap_cases otherValid found⟩
  rw [intersection, found, ok_bind, pure_eq_ok]

theorem OverlapCase.of_spansBothEnds (outcome : OverlapCase arc other overlap)
    (nonempty : other.points ≠ ∅) (both : arc.SpansBothEnds other) :
    ∃ arcLength otherLength, arc.length = .ok arcLength ∧ other.length = .ok otherLength ∧
      overlap = .cover (if otherLength.lt arcLength then other else arc) := by
  obtain ⟨loHeld, hiHeld⟩ := both
  cases outcome with
  | vanishing vanishes => exact absurd vanishes nonempty
  | both _ _ _ otherLengthIs arcLengthIs => exact ⟨_, _, arcLengthIs, otherLengthIs, rfl⟩
  | fromLo _ _ hiFree => exact absurd hiHeld hiFree
  | toHi _ loFree | within loFree | apart loFree => exact absurd loHeld loFree

theorem SpansBothEnds.mem_points (both : arc.SpansBothEnds other) (otherValid : other.Valid) :
    other.lo.circlePoint ∈ arc.points ∧ other.hi.circlePoint ∈ arc.points := by
  obtain ⟨loHeld, hiHeld⟩ := both
  have loOnCircle := otherValid.lo_isAngle.circlePoint_mem
  have hiOnCircle := otherValid.hi_isAngle.circlePoint_mem
  rw [mem_points_iff, mem_points_iff]
  refine ⟨⟨loOnCircle, ?_⟩, hiOnCircle, ?_⟩
  · unfold Value.circlePoint
    split
    · rwa [← otherValid.hi_exact_of_lo ‹_›]
    · exact loHeld
  · unfold Value.circlePoint
    split
    · rwa [← otherValid.lo_exact_of_hi ‹_›]
    · exact hiHeld

theorem Valid.lo_mem_points (valid : arc.Valid) (nonempty : arc.points ≠ ∅) :
    arc.lo.circlePoint ∈ arc.points := by
  rw [Ne, valid.points_eq_empty_iff] at nonempty
  have ends := valid.exactEnds
  have onCircle := valid.lo_isAngle.circlePoint_mem
  refine mem_points_iff.mpr ⟨onCircle, ?_⟩
  unfold Value.circlePoint Spans
  grind

theorem OverlapCase.inter_subset (outcome : OverlapCase arc other overlap) (arcValid : arc.Valid)
    (otherValid : other.Valid) :
    arc.points ∩ other.points ⊆ overlap.toArc.points ∧
      (overlap.toArc.points ⊆ arc.points ∨ overlap.toArc.points ⊆ other.points) ∧
      (overlap.toArc.points = ∅ ↔ arc.points ∩ other.points = ∅) := by
  by_cases exact : other.points = ∅ ∨ ¬ arc.SpansBothEnds other
  · rw [outcome.points_eq_inter arcValid otherValid exact]
    exact ⟨Set.Subset.refl _, .inl Set.inter_subset_left, Iff.rfl⟩
  rw [not_or, not_not] at exact
  obtain ⟨nonempty, both⟩ := exact
  have common : (arc.points ∩ other.points).Nonempty :=
    ⟨_, (both.mem_points otherValid).1, otherValid.lo_mem_points nonempty⟩
  obtain ⟨_, _, -, -, rfl⟩ := outcome.of_spansBothEnds nonempty both
  rw [Overlap.toArc]
  split
  · exact ⟨Set.inter_subset_right, .inr (Set.Subset.refl _),
      iff_of_false nonempty common.ne_empty⟩
  · exact ⟨Set.inter_subset_left, .inl (Set.Subset.refl _),
      iff_of_false (common.mono Set.inter_subset_left).ne_empty common.ne_empty⟩

/-- The intersection of valid arcs always succeeds with a valid arc, which is empty just if the arcs
do not intersect, covers their common points, and lies in one of them. Unless the first arc holds
both ends of the second, it has no other points. -/
theorem Valid.intersection_is_sound_cover (arcValid : arc.Valid) (otherValid : other.Valid) :
    ∃ cover, arc.intersection other = .ok cover ∧ cover.Valid ∧
      (cover.isEmpty = true ↔ arc.intersects other = .ok false) ∧
      arc.points ∩ other.points ⊆ cover.points ∧
      (arc.contains cover = .ok true ∨ other.contains cover = .ok true) ∧
      (¬ (arc.holds other.lo = .ok true ∧ arc.holds other.hi = .ok true) ∨
          ¬ (other.lo.circlePoint ∈ arc.points ∧ other.hi.circlePoint ∈ arc.points) →
        cover.points = arc.points ∩ other.points) := by
  obtain ⟨overlap, intersected, outcome⟩ := arcValid.intersection_cases otherValid
  have coverValid := outcome.valid arcValid otherValid
  obtain ⟨held, inside, emptyIff⟩ := outcome.inter_subset arcValid otherValid
  refine ⟨overlap.toArc, intersected, coverValid, ?_, held, ?_, ?_⟩
  · rw [coverValid.isEmpty_iff_points, (arcValid.intersects_decides otherValid).eq_false_iff,
      Set.not_nonempty_iff_eq_empty]
    exact emptyIff
  · rw [(arcValid.contains_decides coverValid).eq_true_iff,
      (otherValid.contains_decides coverValid).eq_true_iff]
    exact inside
  · rw [(arcValid.holds_decides otherValid.lo_isAngle).eq_true_iff,
      (arcValid.holds_decides otherValid.hi_isAngle).eq_true_iff]
    intro outside
    refine outcome.points_eq_inter arcValid otherValid (.inr fun both => ?_)
    rcases outside with free | missed
    · exact free both
    · exact missed (both.mem_points otherValid)

theorem Valid.intersection_is_sound_cover_of_touching :
    (Arc.mk (.number epsilon) (.number endAllowance)).Valid ∧
      (Arc.mk (.number endAllowance) (.number halfTurn)).Valid ∧
      (Arc.mk (.number endAllowance) (.number endAllowance)).points =
        (Arc.mk (.number epsilon) (.number endAllowance)).points ∩
          (Arc.mk (.number endAllowance) (.number halfTurn)).points := by
  have arcValid : (Arc.mk (.number epsilon) (.number endAllowance)).Valid := by decide +kernel
  have otherValid : (Arc.mk (.number endAllowance) (.number halfTurn)).Valid := by decide +kernel
  have intersected : (Arc.mk (.number epsilon) (.number endAllowance)).intersection
      ⟨.number endAllowance, .number halfTurn⟩ = .ok ⟨.number endAllowance, .number endAllowance⟩ := by
    decide +kernel
  obtain ⟨cover, intersectedToo, -, -, -, -, exact⟩ :=
    arcValid.intersection_is_sound_cover otherValid
  cases intersected.symm.trans intersectedToo
  exact ⟨arcValid, otherValid, exact (.inl (by decide +kernel))⟩

end Arc

end CircularArc
