import CircularArc.Proofs.NestedIntersection
import CircularArc.Proofs.Union

/-!
# Unions in the other order

The union of arcs that meet is determined by its points, so that it does not depend on their order.
Of arcs that are apart, the same gap is bridged in both orders unless the two come out as equally
long: then each order bridges the gap behind its own first arc.
-/

set_option autoImplicit false

namespace CircularArc

namespace Arc

variable {arc other : Arc}

/-- The arcs are apart, and the gaps between them are measured to be equally long. -/
structure Ties (arc other : Arc) : Prop where
  nonempty : arc.points.Nonempty
  otherNonempty : other.points.Nonempty
  disjoint : Disjoint arc.points other.points
  gaps : ∃ gapBefore gapAfter, other.hi.forwardDistance arc.lo = .ok gapBefore ∧
    arc.hi.forwardDistance other.lo = .ok gapAfter ∧ gapBefore.same gapAfter = true

theorem Ties.apart (ties : arc.Ties other) (arcValid : arc.Valid) (otherValid : other.Valid) :
    arc.Apart other :=
  (arcValid.apart_iff otherValid).mpr
    ⟨ties.nonempty.ne_empty, ties.otherNonempty.ne_empty, ties.disjoint⟩

theorem Apart.ties_iff (apart : arc.Apart other) (arcValid : arc.Valid) (otherValid : other.Valid)
    {gapBefore gapAfter : Number} (gapBeforeIs : other.hi.forwardDistance arc.lo = .ok gapBefore)
    (gapAfterIs : arc.hi.forwardDistance other.lo = .ok gapAfter) :
    arc.Ties other ↔ gapBefore.same gapAfter = true := by
  obtain ⟨nonempty, otherNonempty, disjoint⟩ := (arcValid.apart_iff otherValid).mp apart
  constructor
  · rintro ⟨-, -, -, _, _, foundBefore, foundAfter, same⟩
    cases gapBeforeIs.symm.trans foundBefore
    cases gapAfterIs.symm.trans foundAfter
    exact same
  · intro same
    exact ⟨Set.nonempty_iff_ne_empty.mpr nonempty, Set.nonempty_iff_ne_empty.mpr otherNonempty,
      disjoint, gapBefore, gapAfter, gapBeforeIs, gapAfterIs, same⟩

/-- Arcs that meet, or of which one is empty, have the same union in both orders. -/
theorem UnionCase.same_of_not_apart {cover flipped : Arc} (outcome : UnionCase arc other cover)
    (flippedOutcome : UnionCase other arc flipped) (arcValid : arc.Valid)
    (otherValid : other.Valid) (meets : ¬ arc.Apart other) : cover.same flipped = true := by
  have flippedMeets := mt Apart.symm meets
  rw [arcValid.apart_iff otherValid] at meets
  rw [otherValid.apart_iff arcValid] at flippedMeets
  rw [(outcome.valid arcValid otherValid).same_iff_points
      (flippedOutcome.valid otherValid arcValid),
    outcome.points_of_meets arcValid otherValid (by tauto),
    flippedOutcome.points_of_meets otherValid arcValid (by tauto), Set.union_comm]

theorem Apart.lo_ne (apart : arc.Apart other) (arcValid : arc.Valid) (otherValid : other.Valid) :
    arc.lo.exactValue ≠ other.lo.exactValue := by
  obtain ⟨above, order⟩ := apart.exactEnds arcValid otherValid
  grind

theorem Apart.union_swap (apart : arc.Apart other) (arcValid : arc.Valid)
    (otherValid : other.Valid) {cover flipped : Arc} (outcome : UnionCase arc other cover)
    (flippedOutcome : UnionCase other arc flipped) :
    (cover.same flipped = true ↔ ¬ arc.Ties other) ∧
      (arc.Ties other → cover = ⟨arc.lo, other.hi⟩ ∧ flipped = ⟨other.lo, arc.hi⟩) := by
  obtain ⟨gapBefore, gapAfter, gapBeforeIs, gapAfterIs, rfl⟩ :=
    outcome.of_apart arcValid otherValid apart
  obtain ⟨_, _, foundAfter, foundBefore, rfl⟩ :=
    flippedOutcome.of_apart otherValid arcValid apart.symm
  cases gapBeforeIs.symm.trans foundBefore
  cases gapAfterIs.symm.trans foundAfter
  have beforePlaced :=
    (otherValid.hi_isAngle.forwardDistance_sign arcValid.lo_isAngle gapBeforeIs).1
  have afterPlaced :=
    (arcValid.hi_isAngle.forwardDistance_sign otherValid.lo_isAngle gapAfterIs).1
  rw [apart.ties_iff arcValid otherValid gapBeforeIs gapAfterIs,
    Number.same_eq_decide beforePlaced afterPlaced, Number.lt_eq_decide beforePlaced afterPlaced,
    Number.lt_eq_decide afterPlaced beforePlaced]
  simp only [decide_eq_true_eq]
  rcases lt_trichotomy (Value.number gapBefore).exactValue (Value.number gapAfter).exactValue with
    shorter | equal | longer
  · rw [if_pos shorter, if_neg (not_lt.mpr shorter.le)]
    exact ⟨iff_of_true (same_refl _) shorter.ne, fun tie => absurd tie shorter.ne⟩
  · rw [if_neg equal.not_lt, if_neg equal.not_gt]
    have different : ¬ (Arc.mk arc.lo other.hi).same ⟨other.lo, arc.hi⟩ = true := by
      rw [(apart.bridge_valid arcValid otherValid).same_iff
        (apart.symm.bridge_valid otherValid arcValid)]
      exact fun ends => apart.lo_ne arcValid otherValid ends.1
    exact ⟨iff_of_false different (not_not.mpr equal), fun _ => ⟨rfl, rfl⟩⟩
  · rw [if_neg (not_lt.mpr longer.le), if_pos longer]
    exact ⟨iff_of_true (same_refl _) longer.ne', fun tie => absurd tie longer.ne'⟩

/-- The union of valid arcs is the same in both orders unless the gaps between them come out as
equally long; then each order bridges the gap behind its first arc. -/
theorem Valid.union_comm_unless_ties (arcValid : arc.Valid) (otherValid : other.Valid) :
    ∃ cover flipped, arc.union other = .ok cover ∧ other.union arc = .ok flipped ∧
      (cover.same flipped = true ↔ ¬ arc.Ties other) ∧
      (arc.Ties other → cover = ⟨arc.lo, other.hi⟩ ∧ flipped = ⟨other.lo, arc.hi⟩) := by
  obtain ⟨cover, united, outcome⟩ := arcValid.union_cases otherValid
  obtain ⟨flipped, flippedUnited, flippedOutcome⟩ := otherValid.union_cases arcValid
  refine ⟨cover, flipped, united, flippedUnited, ?_⟩
  by_cases apart : arc.Apart other
  · exact apart.union_swap arcValid otherValid outcome flippedOutcome
  · have untied : ¬ arc.Ties other := fun ties => apart (ties.apart arcValid otherValid)
    have same := outcome.same_of_not_apart flippedOutcome arcValid otherValid apart
    exact ⟨iff_of_true same untied, fun ties => absurd ties untied⟩

/-- Both ways from zero to half a turn are half a turn long. Each order of the two points takes the
way forwards from its first point. -/
theorem Valid.union_comm_unless_ties_at_opposite_points :
    (Arc.mk (.number (Binary64.zero false)) (.number (Binary64.zero false))).Valid ∧
      (Arc.mk (.number halfTurn) (.number halfTurn)).Valid ∧
      (Arc.mk (.number (Binary64.zero false)) (.number (Binary64.zero false))).Ties
        ⟨.number halfTurn, .number halfTurn⟩ ∧
      (Arc.mk (.number (Binary64.zero false)) (.number (Binary64.zero false))).union
        ⟨.number halfTurn, .number halfTurn⟩ =
          .ok ⟨.number (Binary64.zero false), .number halfTurn⟩ ∧
      (Arc.mk (.number halfTurn) (.number halfTurn)).union
        ⟨.number (Binary64.zero false), .number (Binary64.zero false)⟩ =
          .ok ⟨.number halfTurn, .number (Binary64.zero false)⟩ := by
  have zeroAngle := Value.zero_isAngle
  have zeroIs := Value.exactValue_zero
  have turnIs := Value.exactValue_halfTurn
  have positive := halfCircle_pos
  have zeroValid := valid_of_above zeroAngle zeroAngle (by linarith) (by linarith)
  have turnValid := halfTurn_point_valid
  have apart : (Arc.mk (.number (Binary64.zero false)) (.number (Binary64.zero false))).Apart
      ⟨.number halfTurn, .number halfTurn⟩ := by
    refine ⟨?_, ?_, ?_, ?_⟩
    · rw [Ne, zeroValid.points_eq_empty_iff]
      grind
    · rw [Ne, turnValid.points_eq_empty_iff]
      grind
    · unfold Spans
      grind
    · unfold Spans
      grind
  have wayBack : (Value.number halfTurn).forwardDistance (.number (Binary64.zero false)) =
      .ok (.real halfTurn) := by decide +kernel
  have wayThere : (Value.number (Binary64.zero false)).forwardDistance (.number halfTurn) =
      .ok (.real halfTurn) := by decide +kernel
  have equal : (Number.real halfTurn).same (.real halfTurn) = true := by
    rw [Number.same_of_position Number.real_halfTurn_position Number.real_halfTurn_position,
      decide_eq_true rfl]
  have ties := (apart.ties_iff zeroValid turnValid wayBack wayThere).mpr equal
  obtain ⟨cover, flipped, united, flippedUnited, -, tied⟩ :=
    zeroValid.union_comm_unless_ties turnValid
  obtain ⟨rfl, rfl⟩ := tied ties
  exact ⟨zeroValid, turnValid, ties, united, flippedUnited⟩

end Arc

end CircularArc
