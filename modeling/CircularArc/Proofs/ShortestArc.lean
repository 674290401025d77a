import CircularArc.Proofs.Projection

/-!
# The shortest arc between two points

Which way round to go is decided by one computed distance, compared with half a turn. So the arc that is
chosen hardly exceeds half a turn, and an arc that contains both points is hardly shorter.
-/

set_option autoImplicit false

namespace CircularArc

variable {first second : ℚ}

theorem forwardGap_le_circularDistance
    (short : forwardGap first second ≤ halfCircle + 1 / 2 ^ 50) :
    forwardGap first second ≤ circularDistance first second + 1 / 2 ^ 49 := by
  by_cases same : first = second
  · subst same
    rw [forwardGap_self, circularDistance_self]
    positivity
  · have around := forwardGap_add_swap same
    rw [circularDistance, ← min_add_add_right]
    refine le_min ?_ ?_ <;> linarith

namespace Arc

variable {arc : Arc}

theorem Proper.circularDistance_le (proper : arc.Proper) (firstHeld : first ∈ arc.points)
    (secondHeld : second ∈ arc.points) : circularDistance first second ≤ arc.exactLength := by
  obtain ⟨firstOn, firstNear⟩ := proper.mem_points_iff.mp firstHeld
  obtain ⟨secondOn, secondNear⟩ := proper.mem_points_iff.mp secondHeld
  have firstFrom := forwardGap_nonneg proper.lo_mem firstOn
  have secondFrom := forwardGap_nonneg proper.lo_mem secondOn
  rcases le_total (forwardGap arc.lo.exactValue first) (forwardGap arc.lo.exactValue second)
    with forwards | backwards
  · refine min_le_of_left_le ?_
    rw [forwardGap_from_of_le _ firstOn secondOn forwards]
    linarith
  · refine min_le_of_right_le ?_
    rw [forwardGap_from_of_le _ secondOn firstOn backwards]
    linarith

theorem Valid.circularDistance_le (valid : arc.Valid) (firstHeld : first ∈ arc.points)
    (secondHeld : second ∈ arc.points) : circularDistance first second ≤ arc.exactLength := by
  have nonempty := valid.isEmpty_of_mem firstHeld
  cases whole : arc.isFull with
  | false =>
    exact (valid.proper_of_isEmpty_of_isFull nonempty whole).circularDistance_le firstHeld secondHeld
  | true =>
    have positive := halfCircle_pos
    have short := forwardGap_lt (points_subset_circle firstHeld) (points_subset_circle secondHeld)
    obtain ⟨loAt, hiAt⟩ := valid.isFull_iff.mp whole
    have turn : arc.exactLength = 2 * halfCircle := by
      rw [exactLength, loAt, hiAt, forwardGap_of_le (by linarith)]
      ring
    rw [turn]
    exact (min_le_left _ _).trans (le_of_lt short)

theorem Valid.mem_points_of_containsPoint (valid : arc.Valid) {value : Value}
    (held : arc.containsPoint value = .ok true) : value.circlePoint ∈ arc.points := by
  obtain ⟨point, named, -⟩ := exists_of_bind_eq_ok held
  obtain ⟨isAngle, notTruth⟩ := Value.isAngle_of_point named
  exact (valid.containsPoint_decides isAngle notTruth).eq_true_iff.mp held

end Arc

/-!
## The choice
-/

theorem halfCircle_gt : 1 / 2 ^ 50 < halfCircle := by
  have size := halfTurnUnits_eq_mul
  have positive := epsilonUnits_pos
  rw [← unitsValue_four_epsilon, halfCircle, unitsValue_lt_iff]
  omega

theorem Value.IsAngle.le_halfTurn_near {source target : Value} {distance : Number}
    (sourceAngle : source.IsAngle) (targetAngle : target.IsAngle)
    (distanceIs : source.forwardDistance target = .ok distance) :
    if distance.le halfTurn then
      forwardGap source.exactValue target.exactValue ≤ halfCircle + 1 / 2 ^ 50
    else
      halfCircle ≤ forwardGap source.exactValue target.exactValue + 1 / 2 ^ 50 := by
  obtain ⟨_, found, placed, error⟩ := sourceAngle.forwardDistance targetAngle
  cases distanceIs.symm.trans found
  have bound := halfCircle_lt
  rw [abs_le] at error
  unfold twoRoundings at error
  rw [Number.le_eq_decide placed halfTurn_isPlaced, exactValue_halfTurn]
  by_cases short : (number distance).exactValue ≤ halfCircle
  · rw [if_pos (decide_eq_true short)]
    linarith
  · rw [if_neg (by simpa using short)]
    linarith

namespace Arc

section Shortest

variable {first second : Value} (firstAngle : first.IsAngle) (secondAngle : second.IsAngle)
include firstAngle secondAngle

theorem shortest_cases :
    ∃ arc, shortest first second = .ok arc ∧
      (arc = ⟨first.canonical, second.canonical⟩ ∨ arc = ⟨second.canonical, first.canonical⟩) ∧
      arc.exactLength ≤ halfCircle + 1 / 2 ^ 50 := by
  obtain ⟨firstNumber, -, firstAccepted, firstIs⟩ := firstAngle.angle_eq "p1"
  obtain ⟨secondNumber, -, secondAccepted, secondIs⟩ := secondAngle.angle_eq "p2"
  obtain ⟨firstPoint, -⟩ := firstAngle.canonical_spec
  obtain ⟨secondPoint, -⟩ := secondAngle.canonical_spec
  rw [← firstIs] at firstPoint ⊢
  rw [← secondIs] at secondPoint ⊢
  obtain ⟨distance, distanceIs, -⟩ := firstPoint.forwardDistance secondPoint
  have near := firstPoint.le_halfTurn_near secondPoint distanceIs
  rw [Value.forwardDistance_number] at distanceIs
  simp only [shortest, firstAccepted, secondAccepted, ok_bind, distanceIs]
  by_cases short : distance.le halfTurn = true
  · rw [if_pos short] at near ⊢
    exact ⟨_, rfl, .inl rfl, near⟩
  · rw [if_neg short] at near ⊢
    refine ⟨_, rfl, .inr rfl, ?_⟩
    have wide := halfCircle_gt
    have distinct : (Value.number firstNumber.canonical).exactValue ≠
        (Value.number secondNumber.canonical).exactValue := by
      intro same
      rw [same, forwardGap_self] at near
      linarith
    have around := forwardGap_add_swap distinct
    unfold exactLength
    linarith

/-- Whichever way round is chosen is hardly longer than the shorter one. -/
theorem shortest_exactLength_le {arc : Arc}
    (ends : arc = ⟨first.canonical, second.canonical⟩ ∨ arc = ⟨second.canonical, first.canonical⟩)
    (short : arc.exactLength ≤ halfCircle + 1 / 2 ^ 50) :
    arc.exactLength ≤ circularDistance first.circlePoint second.circlePoint + 1 / 2 ^ 49 := by
  have firstAt := firstAngle.canonical_spec.2
  have secondAt := secondAngle.canonical_spec.2
  unfold exactLength at short ⊢
  rcases ends with rfl | rfl
  · rw [firstAt, secondAt] at short ⊢
    exact forwardGap_le_circularDistance short
  · rw [firstAt, secondAt] at short ⊢
    rw [circularDistance, min_comm]
    exact forwardGap_le_circularDistance short

/-- Two angles have an arc between them that is valid, hardly longer than half a turn, and hardly longer
than any other arc that contains both. -/
theorem shortest_is_minimal :
    ∃ arc, shortest first second = .ok arc ∧ arc.Valid ∧ arc.isEmpty = false ∧
      arc.isFull = false ∧
      (arc = ⟨first.canonical, second.canonical⟩ ∨ arc = ⟨second.canonical, first.canonical⟩) ∧
      arc.exactLength ≤ halfCircle + 1 / 2 ^ 50 ∧
      ∀ other : Arc, other.Valid → other.containsPoint first = .ok true →
        other.containsPoint second = .ok true →
          arc.exactLength ≤ other.exactLength + 1 / 2 ^ 49 := by
  obtain ⟨arc, arcIs, ends, short⟩ := shortest_cases firstAngle secondAngle
  have valid := shortest_valid arcIs
  have near := shortest_exactLength_le firstAngle secondAngle ends short
  have proper : arc.Proper := by
    rcases ends with rfl | rfl
    · exact ⟨firstAngle.canonical_mem, secondAngle.canonical_mem⟩
    · exact ⟨secondAngle.canonical_mem, firstAngle.canonical_mem⟩
  refine ⟨arc, arcIs, valid, ?_, ?_, ends, short, fun other otherValid firstHeld secondHeld => ?_⟩
  · exact valid.isEmpty_of_mem proper.lo_mem_points
  · rw [← Bool.not_eq_true, valid.isFull_iff]
    exact fun whole => ne_of_gt proper.lo_mem.1 whole.1
  · have apart := otherValid.circularDistance_le (otherValid.mem_points_of_containsPoint firstHeld)
      (otherValid.mem_points_of_containsPoint secondHeld)
    linarith

end Shortest

/-- From zero to half a turn, given by its other name, both ways are equally long. The full circle
contains both points. -/
theorem shortest_is_minimal_to_half_turn :
    (Value.number (Binary64.zero false)).IsAngle ∧ (Value.number minusHalfTurn).IsAngle ∧
      full.Valid ∧ full.containsPoint (.number (Binary64.zero false)) = .ok true ∧
      full.containsPoint (.number minusHalfTurn) = .ok true ∧
      ∃ arc, shortest (.number (Binary64.zero false)) (.number minusHalfTurn) = .ok arc ∧
        arc.Valid ∧ arc.exactLength ≤ halfCircle + 1 / 2 ^ 50 ∧
        arc.exactLength ≤ full.exactLength + 1 / 2 ^ 49 := by
  have zeroAngle : (Value.number (Binary64.zero false)).IsAngle := ⟨0, rfl, Nat.zero_le _⟩
  have held {value : Value} (isAngle : value.IsAngle) (notTruth : value.kind ≠ .truth) :
      full.containsPoint value = .ok true := by
    rw [(full_valid.containsPoint_decides isAngle notTruth).eq_true_iff, full_points]
    exact isAngle.circlePoint_mem
  have zeroHeld := held zeroAngle nofun
  have turnHeld := held Value.minusHalfTurn_isAngle nofun
  obtain ⟨arc, arcIs, valid, -, -, -, short, least⟩ :=
    shortest_is_minimal zeroAngle Value.minusHalfTurn_isAngle
  exact ⟨zeroAngle, Value.minusHalfTurn_isAngle, full_valid, zeroHeld, turnHeld, arc, arcIs, valid,
    short, least full full_valid zeroHeld turnHeld⟩

end Arc

end CircularArc
