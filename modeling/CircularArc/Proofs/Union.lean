import CircularArc.Arc.Algebra
import CircularArc.Proofs.Containment
import CircularArc.Proofs.ForwardDistance

/-!
# Unions

A union never fails on valid arcs and comes about in one of seven ways. Where the arcs meet, the
cover is their exact set union; where they are apart, it adds the shorter of the two gaps between
them, up to rounding.
-/

set_option autoImplicit false

namespace CircularArc

namespace Arc

/-- Neither arc is empty, and neither holds the point at which the other starts. -/
structure Apart (arc other : Arc) : Prop where
  nonempty : arc.points ≠ ∅
  otherNonempty : other.points ≠ ∅
  loFree : ¬ arc.Spans other.lo.exactValue
  otherLoFree : ¬ other.Spans arc.lo.exactValue

/-- How the union of two arcs comes about, and the arc that it is. -/
inductive UnionCase (arc other : Arc) : Arc → Prop where
  | within (inside : other.points ⊆ arc.points) : UnionCase arc other arc
  | closing (loHeld : arc.Spans other.lo.exactValue) (hiHeld : arc.Spans other.hi.exactValue)
      (outside : ¬ other.points ⊆ arc.points) : UnionCase arc other full
  | after (nonempty : other.points ≠ ∅) (loHeld : arc.Spans other.lo.exactValue)
      (hiFree : ¬ arc.Spans other.hi.exactValue) : UnionCase arc other ⟨arc.lo, other.hi⟩
  | before (nonempty : other.points ≠ ∅) (loFree : ¬ arc.Spans other.lo.exactValue)
      (hiHeld : arc.Spans other.hi.exactValue) : UnionCase arc other ⟨other.lo, arc.hi⟩
  | around (loFree : ¬ arc.Spans other.lo.exactValue) (hiFree : ¬ arc.Spans other.hi.exactValue)
      (reaches : arc.points = ∅ ∨ other.Spans arc.lo.exactValue) : UnionCase arc other other
  | bridgeBefore {gapBefore gapAfter : Number} (apart : arc.Apart other)
      (gapBeforeIs : other.hi.forwardDistance arc.lo = .ok gapBefore)
      (gapAfterIs : arc.hi.forwardDistance other.lo = .ok gapAfter)
      (shorter : gapBefore.lt gapAfter = true) : UnionCase arc other ⟨other.lo, arc.hi⟩
  | bridgeAfter {gapBefore gapAfter : Number} (apart : arc.Apart other)
      (gapBeforeIs : other.hi.forwardDistance arc.lo = .ok gapBefore)
      (gapAfterIs : arc.hi.forwardDistance other.lo = .ok gapAfter)
      (notLonger : gapBefore.lt gapAfter = false) : UnionCase arc other ⟨arc.lo, other.hi⟩

/-- The arc from the end of the first arc to the start of the second. Its interior is the gap
between the two. -/
def gapTo (arc other : Arc) : Arc := ⟨arc.hi, other.lo⟩

/-- The cover joins two arcs from the start of the first to the end of the second. It adds the gap
between them and leaves out the gap behind them, which is at most a rounding error shorter. -/
structure Bridges (first second cover : Arc) : Prop where
  ends : cover = ⟨first.lo, second.hi⟩
  points : cover.points = first.points ∪ second.points ∪ (first.gapTo second).interiorPoints
  spared_nonempty : (second.gapTo first).interiorPoints.Nonempty
  spares : Disjoint cover.points (second.gapTo first).interiorPoints
  length_le : (first.gapTo second).exactLength ≤ (second.gapTo first).exactLength + 1 / 2 ^ 48

variable {arc other : Arc}

theorem Apart.symm (apart : arc.Apart other) : other.Apart arc :=
  ⟨apart.otherNonempty, apart.nonempty, apart.otherLoFree, apart.loFree⟩

theorem Valid.apart_iff (arcValid : arc.Valid) (otherValid : other.Valid) :
    arc.Apart other ↔ arc.points ≠ ∅ ∧ other.points ≠ ∅ ∧ Disjoint arc.points other.points := by
  have meets := (arcValid.intersects_decides otherValid).unique
    (arcValid.intersects_ends otherValid)
  have ends := arcValid.exactEnds
  have otherEnds := otherValid.exactEnds
  have positive := halfCircle_pos
  have emptyIff := arcValid.points_eq_empty_iff
  have otherEmptyIff := otherValid.points_eq_empty_iff
  have disjointIff : Disjoint arc.points other.points ↔ arc.points = ∅ ∨ other.points = ∅ ∨
      ¬ arc.Spans other.lo.exactValue ∧ ¬ other.Spans arc.lo.exactValue := by
    rw [Set.disjoint_iff_inter_eq_empty, ← Set.not_nonempty_iff_eq_empty, meets, emptyIff,
      otherEmptyIff]
    unfold Spans
    grind
  constructor
  · rintro ⟨nonempty, otherNonempty, loFree, otherLoFree⟩
    exact ⟨nonempty, otherNonempty, disjointIff.mpr (.inr (.inr ⟨loFree, otherLoFree⟩))⟩
  · rintro ⟨nonempty, otherNonempty, disjoint⟩
    rcases disjointIff.mp disjoint with vanishes | vanishes | ⟨loFree, otherLoFree⟩
    · exact absurd vanishes nonempty
    · exact absurd vanishes otherNonempty
    · exact ⟨nonempty, otherNonempty, loFree, otherLoFree⟩

theorem Apart.exactEnds (apart : arc.Apart other) (arcValid : arc.Valid)
    (otherValid : other.Valid) :
    (-halfCircle < arc.lo.exactValue ∧ -halfCircle < arc.hi.exactValue ∧
      -halfCircle < other.lo.exactValue ∧ -halfCircle < other.hi.exactValue) ∧
      ((arc.lo.exactValue ≤ arc.hi.exactValue ∧ arc.hi.exactValue < other.lo.exactValue ∧
          other.lo.exactValue ≤ other.hi.exactValue) ∨
        (other.lo.exactValue ≤ other.hi.exactValue ∧ other.hi.exactValue < arc.lo.exactValue ∧
          arc.lo.exactValue ≤ arc.hi.exactValue) ∨
        (arc.hi.exactValue < other.lo.exactValue ∧ other.lo.exactValue ≤ other.hi.exactValue ∧
          other.hi.exactValue < arc.lo.exactValue) ∨
        (other.hi.exactValue < arc.lo.exactValue ∧ arc.lo.exactValue ≤ arc.hi.exactValue ∧
          arc.hi.exactValue < other.lo.exactValue)) := by
  obtain ⟨nonempty, otherNonempty, loFree, otherLoFree⟩ := apart
  rw [Ne, arcValid.points_eq_empty_iff] at nonempty
  rw [Ne, otherValid.points_eq_empty_iff] at otherNonempty
  have ends := arcValid.exactEnds
  have otherEnds := otherValid.exactEnds
  have positive := halfCircle_pos
  unfold Spans at loFree otherLoFree
  rcases le_or_gt arc.lo.exactValue arc.hi.exactValue with order | order
  · rw [if_pos order] at loFree
    grind
  · rw [if_neg (not_le.mpr order)] at loFree
    grind

/-- Every union of valid arcs comes about in one of the listed ways; in particular none fails. -/
theorem Valid.union_cases (arcValid : arc.Valid) (otherValid : other.Valid) :
    ∃ cover, arc.union other = .ok cover ∧ UnionCase arc other cover := by
  obtain ⟨loOutcome, loIs, loMeans⟩ := arcValid.holds_decides otherValid.lo_isAngle
  obtain ⟨hiOutcome, hiIs, hiMeans⟩ := arcValid.holds_decides otherValid.hi_isAngle
  obtain ⟨inside, insideIs, insideMeans⟩ := arcValid.contains_decides otherValid
  obtain ⟨reached, reachedIs, reachedMeans⟩ := otherValid.holds_decides arcValid.lo_isAngle
  unfold union
  rw [loIs, hiIs, insideIs, reachedIs]
  simp only [ok_bind, pure_eq_ok, orM_ok]
  by_cases otherEmpty : other.isEmpty = true
  · rw [if_pos otherEmpty]
    refine ⟨arc, rfl, .within ?_⟩
    rw [otherValid.isEmpty_iff_points.mp otherEmpty]
    exact Set.empty_subset _
  have nonempty : other.points ≠ ∅ := mt otherValid.isEmpty_iff_points.mpr otherEmpty
  rw [if_neg otherEmpty]
  by_cases loHeld : loOutcome = true
  · rw [if_pos loHeld]
    by_cases hiHeld : hiOutcome = true
    · rw [if_pos hiHeld]
      by_cases contained : inside = true
      · rw [if_pos contained]
        exact ⟨arc, rfl, .within (insideMeans.mp contained)⟩
      · rw [if_neg contained]
        exact ⟨full, rfl, .closing (loMeans.mp loHeld) (hiMeans.mp hiHeld)
          (mt insideMeans.mpr contained)⟩
    · rw [if_neg hiHeld]
      exact ⟨_, rfl, .after nonempty (loMeans.mp loHeld) (mt hiMeans.mpr hiHeld)⟩
  rw [if_neg loHeld]
  have loFree := mt loMeans.mpr loHeld
  by_cases hiHeld : hiOutcome = true
  · rw [if_pos hiHeld]
    exact ⟨_, rfl, .before nonempty loFree (hiMeans.mp hiHeld)⟩
  rw [if_neg hiHeld]
  have hiFree := mt hiMeans.mpr hiHeld
  by_cases reaches : (arc.isEmpty || reached) = true
  · rw [if_pos reaches]
    rw [Bool.or_eq_true, arcValid.isEmpty_iff_points, reachedMeans] at reaches
    exact ⟨other, rfl, .around loFree hiFree reaches⟩
  rw [if_neg reaches]
  rw [Bool.or_eq_true, arcValid.isEmpty_iff_points, reachedMeans, not_or] at reaches
  have apart : arc.Apart other := ⟨reaches.1, nonempty, loFree, reaches.2⟩
  obtain ⟨gapBefore, gapBeforeIs, -⟩ := otherValid.hi_isAngle.forwardDistance arcValid.lo_isAngle
  obtain ⟨gapAfter, gapAfterIs, -⟩ := arcValid.hi_isAngle.forwardDistance otherValid.lo_isAngle
  rw [gapBeforeIs, ok_bind, gapAfterIs, ok_bind]
  cases shorter : gapBefore.lt gapAfter with
  | true => exact ⟨_, rfl, .bridgeBefore apart gapBeforeIs gapAfterIs shorter⟩
  | false => exact ⟨_, rfl, .bridgeAfter apart gapBeforeIs gapAfterIs shorter⟩

theorem Apart.bridge_valid (apart : arc.Apart other) (arcValid : arc.Valid)
    (otherValid : other.Valid) : (Arc.mk arc.lo other.hi).Valid := by
  obtain ⟨⟨loAbove, -, -, hiAbove⟩, -⟩ := apart.exactEnds arcValid otherValid
  exact valid_of_above arcValid.lo_isAngle otherValid.hi_isAngle loAbove hiAbove

theorem Apart.bridge_points (apart : arc.Apart other) (arcValid : arc.Valid)
    (otherValid : other.Valid) : (Arc.mk arc.lo other.hi).points =
      arc.points ∪ other.points ∪ (arc.gapTo other).interiorPoints := by
  obtain ⟨above, order⟩ := apart.exactEnds arcValid otherValid
  have ends := arcValid.exactEnds
  have otherEnds := otherValid.exactEnds
  ext point
  rw [Set.mem_union, Set.mem_union, mem_points_iff, mem_points_iff, mem_points_iff,
    mem_interiorPoints_iff, ← and_or_left, ← and_or_left]
  refine and_congr_right fun onCircle => ?_
  rw [mem_circle_iff] at onCircle
  unfold Spans gapTo
  grind

theorem Apart.bridge_spares (apart : arc.Apart other) (arcValid : arc.Valid)
    (otherValid : other.Valid) :
    Disjoint (Arc.mk arc.lo other.hi).points (other.gapTo arc).interiorPoints := by
  obtain ⟨above, order⟩ := apart.exactEnds arcValid otherValid
  have ends := arcValid.exactEnds
  have otherEnds := otherValid.exactEnds
  refine Set.disjoint_left.mpr fun point held inGap => ?_
  rw [mem_points_iff, mem_circle_iff] at held
  rw [mem_interiorPoints_iff, mem_circle_iff] at inGap
  unfold Spans at held
  unfold gapTo at inGap
  grind

theorem Apart.gap_nonempty (apart : arc.Apart other) (arcValid : arc.Valid)
    (otherValid : other.Valid) : (arc.gapTo other).interiorPoints.Nonempty := by
  obtain ⟨⟨-, hiAbove, loAbove, -⟩, order⟩ := apart.exactEnds arcValid otherValid
  obtain ⟨-, ⟨-, hiTo⟩, -⟩ := arcValid.exactEnds
  obtain ⟨⟨-, loTo⟩, -⟩ := otherValid.exactEnds
  rcases le_or_gt arc.hi.exactValue other.lo.exactValue with before | beyond
  · have apartEnds : arc.hi.exactValue < other.lo.exactValue := by grind
    obtain ⟨point, after, below⟩ := exists_between apartEnds
    refine ⟨point, mem_interiorPoints_iff.mpr ⟨⟨by linarith, by linarith⟩, ?_⟩⟩
    rw [gapTo, if_pos before]
    exact .inr ⟨after, below⟩
  · obtain ⟨point, above, below⟩ := exists_between loAbove
    refine ⟨point, mem_interiorPoints_iff.mpr ⟨⟨above, by linarith⟩, ?_⟩⟩
    rw [gapTo, if_neg (not_le.mpr beyond)]
    exact .inr below

theorem Apart.bridges (apart : arc.Apart other) (arcValid : arc.Valid) (otherValid : other.Valid)
    {added spared : Number} (addedIs : arc.hi.forwardDistance other.lo = .ok added)
    (sparedIs : other.hi.forwardDistance arc.lo = .ok spared)
    (notLonger : spared.lt added = false) : arc.Bridges other ⟨arc.lo, other.hi⟩ where
  ends := rfl
  points := apart.bridge_points arcValid otherValid
  spared_nonempty := apart.symm.gap_nonempty otherValid arcValid
  spares := apart.bridge_spares arcValid otherValid
  length_le := arcValid.hi_isAngle.forwardGap_le otherValid.lo_isAngle otherValid.hi_isAngle
    arcValid.lo_isAngle addedIs sparedIs notLonger

theorem UnionCase.valid {cover : Arc} (outcome : UnionCase arc other cover)
    (arcValid : arc.Valid) (otherValid : other.Valid) : cover.Valid := by
  have ends := arcValid.exactEnds
  have otherEnds := otherValid.exactEnds
  have positive := halfCircle_pos
  have emptyIff := arcValid.points_eq_empty_iff
  have otherEmptyIff := otherValid.points_eq_empty_iff
  cases outcome with
  | within => exact arcValid
  | closing => exact full_valid
  | after nonempty loHeld hiFree =>
    refine valid_iff.mpr ⟨arcValid.lo_isAngle, otherValid.hi_isAngle, ?_⟩
    unfold Spans at loHeld hiFree
    grind
  | before nonempty loFree hiHeld =>
    refine valid_iff.mpr ⟨otherValid.lo_isAngle, arcValid.hi_isAngle, ?_⟩
    unfold Spans at loFree hiHeld
    grind
  | around => exact otherValid
  | bridgeBefore apart => exact apart.symm.bridge_valid otherValid arcValid
  | bridgeAfter apart => exact apart.bridge_valid arcValid otherValid

theorem Valid.spans_of_closing (arcValid : arc.Valid) (otherValid : other.Valid)
    (loHeld : arc.Spans other.lo.exactValue) (hiHeld : arc.Spans other.hi.exactValue)
    {missing point : ℚ} (missingHeld : other.Spans missing) (missingFree : ¬ arc.Spans missing) :
    arc.Spans point ∨ other.Spans point := by
  have ends := arcValid.exactEnds
  have otherEnds := otherValid.exactEnds
  have positive := halfCircle_pos
  unfold Spans at *
  rcases le_or_gt other.lo.exactValue other.hi.exactValue with otherOrder | otherOrder
  · rw [if_pos otherOrder] at missingHeld ⊢
    grind
  · rw [if_neg (not_le.mpr otherOrder)] at missingHeld ⊢
    grind

theorem points_eq_union {cover : Arc}
    (spans : ∀ point ∈ circle, (cover.Spans point ↔ arc.Spans point ∨ other.Spans point)) :
    cover.points = arc.points ∪ other.points := by
  ext point
  rw [Set.mem_union, mem_points_iff, mem_points_iff, mem_points_iff, ← and_or_left]
  exact and_congr_right (spans point)

theorem full_spans {point : ℚ} (onCircle : point ∈ circle) : full.Spans point := by
  rw [← full_points] at onCircle
  exact (mem_points_iff.mp onCircle).2

theorem UnionCase.points_of_meets {cover : Arc} (outcome : UnionCase arc other cover)
    (arcValid : arc.Valid) (otherValid : other.Valid)
    (meets : arc.points = ∅ ∨ other.points = ∅ ∨ ¬ Disjoint arc.points other.points) :
    cover.points = arc.points ∪ other.points := by
  have ends := arcValid.exactEnds
  have otherEnds := otherValid.exactEnds
  have positive := halfCircle_pos
  have emptyIff := arcValid.points_eq_empty_iff
  have otherEmptyIff := otherValid.points_eq_empty_iff
  cases outcome with
  | within inside => exact (Set.union_eq_left.mpr inside).symm
  | closing loHeld hiHeld outside =>
    obtain ⟨missing, missingHeld, missingFree⟩ := Set.not_subset.mp outside
    obtain ⟨onCircle, missingSpanned⟩ := mem_points_iff.mp missingHeld
    have missingFree := fun spanned => missingFree (mem_points_iff.mpr ⟨onCircle, spanned⟩)
    refine points_eq_union fun point onCircle => ?_
    rw [iff_true_intro (full_spans onCircle), true_iff]
    exact arcValid.spans_of_closing otherValid loHeld hiHeld missingSpanned missingFree
  | after nonempty loHeld hiFree =>
    unfold Spans at loHeld hiFree
    refine points_eq_union fun point onCircle => ?_
    rw [mem_circle_iff] at onCircle
    unfold Spans
    grind
  | before nonempty loFree hiHeld =>
    unfold Spans at loFree hiHeld
    refine points_eq_union fun point onCircle => ?_
    rw [mem_circle_iff] at onCircle
    unfold Spans
    grind
  | around loFree hiFree reaches =>
    unfold Spans at loFree hiFree reaches
    refine points_eq_union fun point onCircle => ?_
    rw [mem_circle_iff] at onCircle
    unfold Spans
    grind
  | bridgeBefore apart | bridgeAfter apart =>
    obtain ⟨nonempty, otherNonempty, disjoint⟩ := (arcValid.apart_iff otherValid).mp apart
    rcases meets with vanishes | vanishes | touching
    · exact absurd vanishes nonempty
    · exact absurd vanishes otherNonempty
    · exact absurd disjoint touching

/-- Only the two bridging cases join arcs that are apart, and the gaps decide between them. -/
theorem UnionCase.of_apart {cover : Arc} (outcome : UnionCase arc other cover)
    (arcValid : arc.Valid) (otherValid : other.Valid) (apart : arc.Apart other) :
    ∃ gapBefore gapAfter, other.hi.forwardDistance arc.lo = .ok gapBefore ∧
      arc.hi.forwardDistance other.lo = .ok gapAfter ∧
      cover = if gapBefore.lt gapAfter then ⟨other.lo, arc.hi⟩ else ⟨arc.lo, other.hi⟩ := by
  have loFree := apart.loFree
  have otherLoFree := apart.otherLoFree
  obtain ⟨nonempty, otherNonempty, disjoint⟩ := (arcValid.apart_iff otherValid).mp apart
  cases outcome with
  | within inside =>
    exact absurd (disjoint.symm.eq_bot_of_le inside) otherNonempty
  | closing loHeld => exact absurd loHeld loFree
  | after _ loHeld => exact absurd loHeld loFree
  | before _ _ hiHeld =>
    obtain ⟨above, order⟩ := apart.exactEnds arcValid otherValid
    unfold Spans at hiHeld
    grind
  | around _ _ reaches =>
    rcases reaches with vanishes | reached
    · exact absurd vanishes nonempty
    · exact absurd reached otherLoFree
  | bridgeBefore _ gapBeforeIs gapAfterIs shorter =>
    exact ⟨_, _, gapBeforeIs, gapAfterIs, by rw [shorter, if_pos rfl]⟩
  | bridgeAfter _ gapBeforeIs gapAfterIs notLonger =>
    exact ⟨_, _, gapBeforeIs, gapAfterIs, by rw [notLonger, if_neg Bool.false_ne_true]⟩

theorem UnionCase.bridges {cover : Arc} (outcome : UnionCase arc other cover)
    (arcValid : arc.Valid) (otherValid : other.Valid) (apart : arc.Apart other) :
    arc.Bridges other cover ∨ other.Bridges arc cover := by
  obtain ⟨gapBefore, gapAfter, gapBeforeIs, gapAfterIs, rfl⟩ :=
    outcome.of_apart arcValid otherValid apart
  by_cases shorter : gapBefore.lt gapAfter = true
  · rw [if_pos shorter]
    have notLonger := Number.lt_asymm shorter
    exact .inr (apart.symm.bridges otherValid arcValid gapBeforeIs gapAfterIs notLonger)
  · rw [if_neg shorter]
    have notLonger := Bool.eq_false_of_not_eq_true shorter
    exact .inl (apart.bridges arcValid otherValid gapAfterIs gapBeforeIs notLonger)

theorem UnionCase.subset {cover : Arc} (outcome : UnionCase arc other cover)
    (arcValid : arc.Valid) (otherValid : other.Valid) :
    arc.points ⊆ cover.points ∧ other.points ⊆ cover.points := by
  by_cases apart : arc.Apart other
  · rcases outcome.bridges arcValid otherValid apart with bridged | bridged
    · rw [bridged.points]
      exact ⟨fun _ held => .inl (.inl held), fun _ held => .inl (.inr held)⟩
    · rw [bridged.points]
      exact ⟨fun _ held => .inl (.inr held), fun _ held => .inl (.inl held)⟩
  · rw [arcValid.apart_iff otherValid] at apart
    rw [outcome.points_of_meets arcValid otherValid (by tauto)]
    exact ⟨Set.subset_union_left, Set.subset_union_right⟩

/-- The union of valid arcs always succeeds with a valid arc that contains both. Of arcs that meet,
or of which one is empty, it has exactly the points of both; of other arcs it has in addition the
points of the shorter gap between them, up to the rounding of the gaps. -/
theorem Valid.union_is_exact_or_bridges_shorter_gap (arcValid : arc.Valid)
    (otherValid : other.Valid) :
    ∃ cover, arc.union other = .ok cover ∧ cover.Valid ∧
      cover.contains arc = .ok true ∧ cover.contains other = .ok true ∧
      (arc.points = ∅ ∨ other.points = ∅ ∨ (arc.points ∩ other.points).Nonempty →
        cover.points = arc.points ∪ other.points) ∧
      (arc.points.Nonempty → other.points.Nonempty → Disjoint arc.points other.points →
        arc.Bridges other cover ∨ other.Bridges arc cover) := by
  obtain ⟨cover, united, outcome⟩ := arcValid.union_cases otherValid
  have coverValid := outcome.valid arcValid otherValid
  obtain ⟨held, otherHeld⟩ := outcome.subset arcValid otherValid
  refine ⟨cover, united, coverValid, ?_, ?_, ?_, ?_⟩
  · exact (coverValid.contains_decides arcValid).eq_true_iff.mpr held
  · exact (coverValid.contains_decides otherValid).eq_true_iff.mpr otherHeld
  · rw [← Set.not_disjoint_iff_nonempty_inter]
    exact outcome.points_of_meets arcValid otherValid
  · intro nonempty otherNonempty disjoint
    have apart := (arcValid.apart_iff otherValid).mpr
      ⟨nonempty.ne_empty, otherNonempty.ne_empty, disjoint⟩
    exact outcome.bridges arcValid otherValid apart

/-- A short arc above zero is joined to the point at half a turn forwards, since the way back around
zero is longer. -/
theorem Valid.union_is_exact_or_bridges_shorter_gap_forwards :
    (Arc.mk (.number epsilon) (.number endAllowance)).Valid ∧
      (Arc.mk (.number halfTurn) (.number halfTurn)).Valid ∧
      (Arc.mk (.number epsilon) (.number endAllowance)).Bridges
        ⟨.number halfTurn, .number halfTurn⟩ ⟨.number epsilon, .number halfTurn⟩ := by
  have arcValid : (Arc.mk (.number epsilon) (.number endAllowance)).Valid := by decide +kernel
  have otherValid : (Arc.mk (.number halfTurn) (.number halfTurn)).Valid := by decide +kernel
  have nonempty := mt arcValid.isEmpty_iff_points.mpr (by decide +kernel)
  have otherNonempty := mt otherValid.isEmpty_iff_points.mpr (by decide +kernel)
  have disjoint := (arcValid.intersects_decides otherValid).eq_false_iff.mp (by decide +kernel)
  rw [← Set.not_disjoint_iff_nonempty_inter, not_not] at disjoint
  have united : (Arc.mk (.number epsilon) (.number endAllowance)).union
      ⟨.number halfTurn, .number halfTurn⟩ = .ok ⟨.number epsilon, .number halfTurn⟩ := by
    decide +kernel
  obtain ⟨cover, unitedToo, -, -, -, -, bridged⟩ :=
    arcValid.union_is_exact_or_bridges_shorter_gap otherValid
  cases united.symm.trans unitedToo
  refine ⟨arcValid, otherValid, ?_⟩
  rcases bridged (Set.nonempty_iff_ne_empty.mpr nonempty)
    (Set.nonempty_iff_ne_empty.mpr otherNonempty) disjoint with forwards | backwards
  · exact forwards
  · exact absurd backwards.ends (by decide +kernel)

end Arc

end CircularArc
