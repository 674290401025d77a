import CircularArc.Proofs.DirectedDistance
import CircularArc.Proofs.PointGrowth

/-!
# Projection onto an arc

A point of an arc is projected onto itself, any other point onto the end that it is nearer to, as far
as the two computed distances tell. An addition of the point moves this very end.
-/

set_option autoImplicit false

namespace CircularArc

namespace Value

variable {value : Value}

theorem IsAngle.canonical_spec (isAngle : value.IsAngle) :
    value.canonical.IsAngle ∧ value.canonical.exactValue = value.circlePoint := by
  obtain ⟨content, rfl⟩ := isAngle.eq_number
  exact Number.canonical_spec isAngle

theorem IsAngle.canonical_mem (isAngle : value.IsAngle) : value.canonical.exactValue ∈ circle := by
  rw [isAngle.canonical_spec.2]
  exact isAngle.circlePoint_mem

theorem IsAngle.canonical_eq_of_mem (isAngle : value.IsAngle)
    (onCircle : value.exactValue ∈ circle) : value.canonical = value := by
  obtain ⟨content, rfl⟩ := isAngle.eq_number
  have apart : content.same minusHalfTurn = false := by
    rw [← Bool.not_eq_true,
      show (content.same minusHalfTurn = true) = ((number content).same minusHalfTurn = true) from rfl,
      isMinusHalfTurn_iff, isAngle.isPlaced.isMinusHalfTurn_iff]
    exact ne_of_gt onCircle.1
  rw [canonical, Number.canonical, if_neg (by simp [apart])]

theorem IsAngle.angle_eq (isAngle : value.IsAngle) (name : String) :
    ∃ content : Number, value = number content ∧ value.angle name = .ok content ∧
      number content.canonical = value.canonical := by
  obtain ⟨content, rfl⟩ := isAngle.eq_number
  exact ⟨content, rfl, angle_eq_ok_iff.mpr ⟨rfl, isAngle⟩, rfl⟩

end Value

namespace Arc

variable {arc : Arc} {value : Value}

theorem Valid.isEmpty_of_mem (valid : arc.Valid) {point : ℚ} (held : point ∈ arc.points) :
    arc.isEmpty = false := by
  rw [← Bool.not_eq_true, valid.isEmpty_iff_points]
  exact Set.nonempty_iff_ne_empty.mp ⟨point, held⟩

theorem Valid.holds_canonical_decides (valid : arc.Valid) (isAngle : value.IsAngle) :
    Decides (arc.holds value.canonical) (value.circlePoint ∈ arc.points) := by
  obtain ⟨canonicalAngle, canonicalAt⟩ := isAngle.canonical_spec
  refine (valid.holds_decides canonicalAngle).congr ?_
  rw [canonicalAt, mem_points_iff]
  exact (and_iff_right isAngle.circlePoint_mem).symm

theorem addPoint_eq_insert (isAngle : value.IsAngle) :
    arc.addPoint value = arc.insert value.canonical := by
  obtain ⟨content, -, accepted, canonical⟩ := isAngle.angle_eq "p"
  rw [addPoint_eq, accepted, ok_bind, canonical]

theorem Valid.project_of_mem (valid : arc.Valid) (isAngle : value.IsAngle)
    (held : value.circlePoint ∈ arc.points) : arc.project value = .ok value.canonical := by
  obtain ⟨content, -, accepted, canonical⟩ := isAngle.angle_eq "p"
  have holds := (valid.holds_canonical_decides isAngle).eq_true_iff.mpr held
  have nonempty := valid.isEmpty_of_mem held
  simp only [Arc.project, nonempty, Bool.false_eq_true, ↓reduceIte, accepted, ok_bind, canonical,
    holds]
  rfl

theorem Valid.project_of_notMem (valid : arc.Valid) (isAngle : value.IsAngle)
    (nonempty : arc.isEmpty = false) (left : value.circlePoint ∉ arc.points) :
    ∃ nearer, arc.isNearerLo value.canonical = .ok nearer ∧
      arc.project value = .ok (if nearer then arc.lo else arc.hi) ∧
      arc.addPoint value =
        .ok (if nearer then ⟨value.canonical, arc.hi⟩ else ⟨arc.lo, value.canonical⟩) := by
  obtain ⟨content, -, accepted, canonical⟩ := isAngle.angle_eq "p"
  have holds := (valid.holds_canonical_decides isAngle).eq_false_iff.mpr left
  obtain ⟨nearer, nearerIs⟩ := valid.exists_isNearerLo isAngle.canonical_spec.1
  refine ⟨nearer, nearerIs, ?_, ?_⟩
  · simp only [Arc.project, nonempty, Bool.false_eq_true, ↓reduceIte, accepted, ok_bind, canonical,
      holds, nearerIs]
    rfl
  · simp only [addPoint_eq_insert isAngle, Arc.insert, holds, ok_bind, Bool.false_eq_true,
      ↓reduceIte, nonempty, nearerIs]
    rfl

/-- The end that is taken for the nearer one is hardly further away. -/
theorem Valid.isNearerLo_near (valid : arc.Valid) {point : Value} {nearer : Bool}
    (isAngle : point.IsAngle) (nearerIs : arc.isNearerLo point = .ok nearer) :
    if nearer then
      forwardGap point.exactValue arc.lo.exactValue ≤
        forwardGap arc.hi.exactValue point.exactValue + 1 / 2 ^ 48
    else
      forwardGap arc.hi.exactValue point.exactValue ≤
        forwardGap point.exactValue arc.lo.exactValue + 1 / 2 ^ 48 := by
  obtain ⟨toLo, toLoIs, -⟩ := isAngle.forwardDistance valid.lo_isAngle
  obtain ⟨fromHi, fromHiIs, -⟩ := valid.hi_isAngle.forwardDistance isAngle
  rw [isNearerLo, toLoIs, ok_bind, fromHiIs, ok_bind, pure_eq_ok, Except.ok.injEq] at nearerIs
  cases nearer with
  | true =>
    rw [if_pos rfl]
    exact isAngle.forwardGap_le valid.lo_isAngle valid.hi_isAngle isAngle toLoIs fromHiIs
      (Number.lt_asymm nearerIs)
  | false =>
    rw [if_neg Bool.false_ne_true]
    exact valid.hi_isAngle.forwardGap_le isAngle isAngle valid.lo_isAngle fromHiIs toLoIs nearerIs

structure ProjectsTo (arc : Arc) (value nearest : Value) : Prop where
  isAngle : nearest.IsAngle
  mem_points : nearest.exactValue ∈ arc.points
  eq_iff_contains : nearest.exactValue = value.circlePoint ↔ arc.containsPoint value = .ok true
  again : arc.project nearest = .ok nearest
  near : ∀ point ∈ arc.points, circularDistance value.circlePoint nearest.exactValue ≤
    circularDistance value.circlePoint point + 1 / 2 ^ 48
  moved : arc.containsPoint value = .ok false →
    (nearest = arc.lo ∧ arc.addPoint value = .ok ⟨value.canonical, arc.hi⟩) ∨
      (nearest = arc.hi ∧ arc.addPoint value = .ok ⟨arc.lo, value.canonical⟩)

theorem Valid.project_again (valid : arc.Valid) {nearest : Value} (isAngle : nearest.IsAngle)
    (held : nearest.exactValue ∈ arc.points) : arc.project nearest = .ok nearest := by
  have onCircle := points_subset_circle held
  rw [← Value.circlePoint_eq_of_mem onCircle] at held
  rw [valid.project_of_mem isAngle held, isAngle.canonical_eq_of_mem onCircle]

theorem Valid.projectsTo_of_mem (valid : arc.Valid) (isAngle : value.IsAngle)
    (notTruth : value.kind ≠ .truth) (held : value.circlePoint ∈ arc.points) :
    arc.ProjectsTo value value.canonical := by
  obtain ⟨canonicalAngle, canonicalAt⟩ := isAngle.canonical_spec
  have decides := valid.containsPoint_decides isAngle notTruth
  have canonicalHeld : value.canonical.exactValue ∈ arc.points := canonicalAt ▸ held
  refine ⟨canonicalAngle, canonicalHeld, iff_of_true canonicalAt (decides.eq_true_iff.mpr held),
    valid.project_again canonicalAngle canonicalHeld, fun point pointHeld => ?_, fun outside => ?_⟩
  · have nonneg := circularDistance_nonneg (points_subset_circle held)
      (points_subset_circle pointHeld)
    rw [canonicalAt, circularDistance_self]
    positivity
  · exact absurd held (decides.eq_false_iff.mp outside)

theorem Valid.projectsTo_of_notMem (valid : arc.Valid) (isAngle : value.IsAngle)
    (notTruth : value.kind ≠ .truth) (proper : arc.Proper)
    (left : value.circlePoint ∉ arc.points) {nearest : Value} (endAngle : nearest.IsAngle)
    (endHeld : nearest.exactValue ∈ arc.points)
    (near : circularDistance value.circlePoint nearest.exactValue ≤
      min (forwardGap arc.hi.exactValue value.circlePoint)
        (forwardGap value.circlePoint arc.lo.exactValue) + 1 / 2 ^ 48)
    (moved : (nearest = arc.lo ∧ arc.addPoint value = .ok ⟨value.canonical, arc.hi⟩) ∨
      (nearest = arc.hi ∧ arc.addPoint value = .ok ⟨arc.lo, value.canonical⟩)) :
    arc.ProjectsTo value nearest := by
  have decides := valid.containsPoint_decides isAngle notTruth
  have onCircle := isAngle.circlePoint_mem
  have least := (proper.isDistanceTo onCircle).2
  rw [proper.distanceFrom_of_notMem onCircle left] at least
  refine ⟨endAngle, endHeld, iff_of_false (fun same => left (same ▸ endHeld)) ?_,
    valid.project_again endAngle endHeld, fun point held => ?_, fun _ => moved⟩
  · rw [decides.eq_true_iff]
    exact left
  · exact near.trans (add_le_add_left (least ⟨point, held, rfl⟩) _)

/-- An arc that is not empty has a point onto which an angle is projected. -/
theorem Valid.project_is_nearest (valid : arc.Valid) (nonempty : arc.isEmpty = false)
    (isAngle : value.IsAngle) (notTruth : value.kind ≠ .truth) :
    ∃ nearest, arc.project value = .ok nearest ∧ arc.ProjectsTo value nearest := by
  by_cases held : value.circlePoint ∈ arc.points
  · exact ⟨_, valid.project_of_mem isAngle held, valid.projectsTo_of_mem isAngle notTruth held⟩
  · obtain ⟨nearer, nearerIs, projects, added⟩ := valid.project_of_notMem isAngle nonempty held
    have proper := valid.proper_of_points
      (fun vanishes => Bool.false_ne_true (nonempty.symm.trans (valid.isEmpty_iff_points.mpr vanishes)))
      (fun whole => held (whole ▸ isAngle.circlePoint_mem))
    obtain ⟨canonicalAngle, canonicalAt⟩ := isAngle.canonical_spec
    have chosen := valid.isNearerLo_near canonicalAngle nearerIs
    rw [canonicalAt] at chosen
    refine ⟨_, projects, ?_⟩
    cases nearer with
    | true =>
      rw [if_pos rfl] at chosen added ⊢
      refine valid.projectsTo_of_notMem isAngle notTruth proper held valid.lo_isAngle
        proper.lo_mem_points ?_ (.inl ⟨rfl, added⟩)
      rw [← min_add_add_right]
      exact (min_le_left _ _).trans (le_min chosen (by linarith))
    | false =>
      rw [if_neg Bool.false_ne_true] at chosen added ⊢
      refine valid.projectsTo_of_notMem isAngle notTruth proper held valid.hi_isAngle
        proper.hi_mem_points ?_ (.inr ⟨rfl, added⟩)
      rw [← min_add_add_right]
      exact (min_le_right _ _).trans (le_min (by linarith) chosen)

/-- A point beyond the lower half of the circle is projected onto the end that its addition moves. -/
theorem Valid.project_is_nearest_beyond_lowerHalf :
    lowerHalf.Valid ∧ lowerHalf.isEmpty = false ∧ (Value.number endAllowance).IsAngle ∧
      (Value.number endAllowance).kind ≠ .truth ∧
      lowerHalf.containsPoint (.number endAllowance) = .ok false ∧
      ∃ nearest, lowerHalf.project (.number endAllowance) = .ok nearest ∧
        lowerHalf.ProjectsTo (.number endAllowance) nearest := by
  have size := halfTurnUnits_eq_mul
  have positive := epsilonUnits_pos
  have stands : (Value.number endAllowance).position = .units (2 * epsilonUnits) :=
    endAllowance_position
  have isAngle : (Value.number endAllowance).IsAngle := ⟨_, stands, by omega⟩
  have notTruth : (Value.number endAllowance).kind ≠ .truth := by decide
  have outside : lowerHalf.containsPoint (.number endAllowance) = .ok false := by
    rw [(lowerHalf_valid.containsPoint_decides isAngle notTruth).eq_false_iff, mem_points_iff]
    rintro ⟨-, spanned⟩
    rw [Spans, lowerHalf_endsAt.lo_exact, lowerHalf_endsAt.hi_exact,
      Value.circlePoint_of_position stands (by omega),
      canonicalUnits_of_within (by omega) (by omega)] at spanned
    simp only [unitsValue_le_iff] at spanned
    rw [if_neg (by omega)] at spanned
    omega
  exact ⟨lowerHalf_valid, lowerHalf_nonempty, isAngle, notTruth, outside,
    lowerHalf_valid.project_is_nearest lowerHalf_nonempty isAngle notTruth⟩

end Arc

end CircularArc
