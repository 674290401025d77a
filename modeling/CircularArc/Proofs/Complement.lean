import CircularArc.Proofs.NestedIntersection
import CircularArc.Proofs.Union

/-!
# Complements

The complement of an arc holds the points that are not in the interior of the arc, so every test of
an interior is the opposite of a closed test of the complement. A complement is undone by another one,
except that of a single point, which is the full circle.
-/

set_option autoImplicit false

namespace CircularArc

/-- Both tests succeed, and their answers are opposite. -/
def Opposite (test other : Except Fault Bool) : Prop :=
  ∃ outcome, test = .ok outcome ∧ other = .ok !outcome

theorem Decides.opposite {test otherTest : Except Fault Bool} {statement other : Prop}
    (decides : Decides test statement) (otherDecides : Decides otherTest other)
    (dual : statement ↔ ¬ other) : Opposite test otherTest := by
  obtain ⟨outcome, succeeds, means⟩ := decides
  obtain ⟨otherOutcome, otherSucceeds, otherMeans⟩ := otherDecides
  have opposed : otherOutcome = !outcome := by
    rw [Bool.eq_iff_iff, otherMeans, Bool.not_eq_true', ← Bool.not_eq_true, means, dual, not_not]
  rw [opposed] at otherSucceeds
  exact ⟨outcome, succeeds, otherSucceeds⟩

namespace Arc

variable {arc other : Arc}

/-!
## Interior tests and tests of the complement
-/

theorem Valid.interiorContainsPoint_eq (valid : arc.Valid) (value : Value) :
    arc.interiorContainsPoint value = (!·) <$> arc.complement.containsPoint value := by
  cases named : value.point with
  | error fault =>
    rw [interiorContainsPoint, containsPoint, named]
    rfl
  | ok point =>
    obtain ⟨isAngle, notTruth⟩ := Value.isAngle_of_point named
    have dual : value.circlePoint ∈ arc.interiorPoints ↔
        ¬ value.circlePoint ∈ arc.complement.points := by
      rw [valid.interiorPoints_eq, Set.mem_sdiff]
      exact and_iff_right isAngle.circlePoint_mem
    obtain ⟨inside, insideIs, outsideIs⟩ := (valid.interiorContainsPoint_decides isAngle notTruth).opposite
      (valid.complement.containsPoint_decides isAngle notTruth) dual
    rw [insideIs, outsideIs]
    exact congrArg Except.ok (Bool.not_not inside).symm

theorem Valid.interiorContains_opposite (arcValid : arc.Valid) (otherValid : other.Valid) :
    Opposite (arc.interiorContains other) (arc.complement.intersects other) :=
  (arcValid.interiorContains_decides otherValid).opposite
    (arcValid.complement.intersects_decides otherValid)
    (arcValid.subset_interiorPoints_iff points_subset_circle)

theorem Valid.interiorIntersects_opposite (arcValid : arc.Valid) (otherValid : other.Valid) :
    Opposite (arc.interiorIntersects other) (arc.complement.contains other) :=
  (arcValid.interiorIntersects_decides otherValid).opposite
    (arcValid.complement.contains_decides otherValid)
    (arcValid.interior_inter_nonempty_iff points_subset_circle)

/-!
## The union with the complement
-/

theorem Valid.isFull_iff_points (valid : arc.Valid) : arc.isFull = true ↔ arc.points = circle := by
  rw [← full_points, ← valid.same_iff_points full_valid, valid.same_iff full_valid,
    valid.isFull_iff, full_lo_exact, full_hi_exact]

theorem Valid.points_union_complement (valid : arc.Valid) :
    arc.points ∪ arc.complement.points = circle := by
  apply Set.Subset.antisymm
  · exact Set.union_subset points_subset_circle points_subset_circle
  · intro point onCircle
    by_cases left : point ∈ arc.complement.points
    · exact .inr left
    · have inside : point ∈ arc.interiorPoints := by
        rw [valid.interiorPoints_eq]
        exact ⟨onCircle, left⟩
      exact .inl (valid.interiorPoints_subset inside)

theorem Valid.not_apart_complement (valid : arc.Valid) : ¬ arc.Apart arc.complement := by
  intro apart
  obtain ⟨⟨-, -, loAbove, -⟩, order⟩ := apart.exactEnds valid valid.complement
  obtain ⟨complementLo, complementHi⟩ := valid.complement_ends
  rw [complementLo] at loAbove order
  rw [complementHi] at order
  by_cases single : arc.lo.exactValue = arc.hi.exactValue
  · rw [if_pos single] at loAbove
    exact lt_irrefl _ loAbove
  · rw [if_neg single, if_neg single] at order
    rcases order with ⟨-, before, -⟩ | ⟨-, before, -⟩ | ⟨before, -⟩ | ⟨before, -⟩ <;>
      exact lt_irrefl _ before

theorem Valid.union_complement (valid : arc.Valid) :
    ∃ whole, arc.union arc.complement = .ok whole ∧ whole.isFull = true := by
  obtain ⟨whole, united, outcome⟩ := valid.union_cases valid.complement
  have meets := valid.not_apart_complement
  rw [valid.apart_iff valid.complement] at meets
  have covered := outcome.points_of_meets valid valid.complement (by tauto)
  rw [valid.points_union_complement] at covered
  have wholeValid := outcome.valid valid valid.complement
  exact ⟨whole, united, wholeValid.isFull_iff_points.mpr covered⟩

/-!
## Complements of complements
-/

theorem full_complement : full.complement = empty := by
  have positive := halfCircle_pos
  have distinct : ¬ full.lo.same full.hi = true := by
    rw [full_valid.sameEnds_iff, full_lo_exact, full_hi_exact]
    linarith
  rw [Arc.complement, if_neg distinct]
  rfl

theorem Valid.complement_complement (valid : arc.Valid) (distinct : ¬ arc.lo.same arc.hi = true) :
    arc.complement.complement = arc := by
  have swapped : arc.complement = ⟨arc.hi, arc.lo⟩ := by
    rw [Arc.complement, if_neg distinct]
  have swappedValid := valid.complement
  rw [swapped] at swappedValid
  rw [valid.sameEnds_iff] at distinct
  have distinctToo : ¬ arc.hi.same arc.lo = true :=
    fun same => distinct (swappedValid.sameEnds_iff.mp same).symm
  rw [swapped, Arc.complement, if_neg distinctToo]

/-- Interior tests of an arc are the opposites of closed tests of its complement: for points, which
both tests refuse alike if they are none, and for arcs. The two make up the full circle, and the
complement is undone by another one unless the arc is a single point. -/
theorem Valid.complement_is_dual (arcValid : arc.Valid) (otherValid : other.Valid) :
    (∀ value, arc.interiorContainsPoint value = (!·) <$> arc.complement.containsPoint value) ∧
      (∀ value : Value, value.IsAngle → value.kind ≠ .truth →
        Opposite (arc.interiorContainsPoint value) (arc.complement.containsPoint value)) ∧
      Opposite (arc.interiorContains other) (arc.complement.intersects other) ∧
      Opposite (arc.interiorIntersects other) (arc.complement.contains other) ∧
      (∃ whole, arc.union arc.complement = .ok whole ∧ whole.isFull = true) ∧
      (arc.lo.same arc.hi = false → arc.complement.complement = arc) ∧
      (arc.lo.same arc.hi = true →
        arc.complement.isFull = true ∧ arc.complement.complement.isEmpty = true) := by
  refine ⟨arcValid.interiorContainsPoint_eq, ?_, arcValid.interiorContains_opposite otherValid,
    arcValid.interiorIntersects_opposite otherValid, arcValid.union_complement, ?_, ?_⟩
  · intro value isAngle notTruth
    have decides := arcValid.complement.containsPoint_decides isAngle notTruth
    obtain ⟨held, heldIs, -⟩ := decides
    rw [arcValid.interiorContainsPoint_eq, heldIs]
    exact ⟨!held, rfl, by rw [Bool.not_not]⟩
  · intro distinct
    exact arcValid.complement_complement (by rw [distinct]; decide)
  · intro single
    have whole : arc.complement = full := by
      rw [Arc.complement, if_pos single]
    rw [whole, full_complement]
    exact ⟨full_valid.isFull_iff_points.mpr full_points,
      empty_valid.isEmpty_iff.mpr ⟨empty_lo_exact, empty_hi_exact⟩⟩

/-- The point at half a turn, which has two names, has an empty interior, and all is left of the circle
without it. -/
theorem Valid.complement_is_dual_of_point :
    (Arc.mk (.number halfTurn) (.number halfTurn)).Valid ∧ full.Valid ∧
      Opposite ((Arc.mk (.number halfTurn) (.number halfTurn)).interiorContainsPoint
          (.number minusHalfTurn))
        ((Arc.mk (.number halfTurn) (.number halfTurn)).complement.containsPoint
          (.number minusHalfTurn)) ∧
      (Arc.mk (.number halfTurn) (.number halfTurn)).complement.isFull = true ∧
      (Arc.mk (.number halfTurn) (.number halfTurn)).complement.complement.isEmpty = true := by
  have single : (Value.number halfTurn).same (.number halfTurn) = true :=
    halfTurn_point_valid.sameEnds_iff.mpr rfl
  obtain ⟨-, points, -, -, -, -, ofPoint⟩ := halfTurn_point_valid.complement_is_dual full_valid
  exact ⟨halfTurn_point_valid, full_valid, points _ Value.minusHalfTurn_isAngle nofun, ofPoint single⟩

end Arc

end CircularArc
