import CircularArc.Proofs.CheckedEnds
import CircularArc.Proofs.DirectedDistance
import CircularArc.Proofs.Growing
import CircularArc.Proofs.Intersection
import CircularArc.Proofs.Union

/-!
# Nothing fails on valid arcs

Sums of angles are finite, and any finite angle is brought back within half a turn, so the checked
constructor takes every pair of ends that is computed. A margin that is too large for its sums to be
followed fills the circle or empties the arc before an end is moved.
-/

set_option autoImplicit false

namespace CircularArc

theorem Number.wrap_total {number : Number} {count : Int} (stands : number.position = .units count)
    (within : count.natAbs ≤ exactLimit) :
    ∃ wrapped, number.wrap = .ok wrapped ∧ (Value.number (.real wrapped)).IsAngle := by
  obtain ⟨nearest, converts, nearestAt⟩ := toBinary64_of_position stands within
  obtain ⟨negative, units, aligned, rfl, -⟩ := Binary64.position_eq_units_iff.mp nearestAt
  have positive := halfTurnUnits_pos
  have limit := halfTurnUnits_le_exactLimit
  obtain ⟨above, below⟩ := nearestQuotient_mul_bounds units
    (show 0 < fullTurnUnits by unfold fullTurnUnits; omega)
  have restWithin (rest : Int)
      (restIs : rest = units - (nearestQuotient units fullTurnUnits : Int) * fullTurnUnits) :
      (if negative then -rest else rest).natAbs ≤ halfTurnUnits := by
    rw [← Int.natCast_mul] at restIs
    generalize nearestQuotient units fullTurnUnits * fullTurnUnits = turns at above below restIs
    unfold fullTurnUnits at above below
    split <;> omega
  have bounded := restWithin _ rfl
  unfold wrap
  simp only [converts, ok_bind, pure_eq_ok]
  exact ⟨_, rfl, _, Binary64.position_ofUnits _ (nearestMagnitude_lt_of_le_exactLimit (by omega)),
    natAbs_roundedUnits_le_halfTurn bounded⟩

theorem Number.lt_zero_of_not_nonneg {margin : Binary64} (defined : margin ≠ .nan)
    (sign : (Number.integer 0).le (.real margin) = false) :
    (Number.real margin).lt (.integer 0) = true := by
  have placed : (Number.real margin).position ≠ .undefined := by
    cases margin with
    | nan => exact absurd rfl defined
    | infinite negative => cases negative <;> simp [Number.position, Binary64.position]
    | finite => simp [Number.position, Binary64.position]
  have zeroPlaced : (Number.integer 0).position ≠ .undefined := by simp [Number.position]
  have order := Position.le_total zeroPlaced placed
  rw [Number.le] at sign
  rw [Number.lt, Position.lt, sign, Bool.not_false, Bool.and_true]
  exact order.resolve_left (by rw [sign]; exact Bool.false_ne_true)

namespace Arc

variable {arc other : Arc} {margin : Binary64} {lo hi count : Int}

theorem Valid.moveEnds_total (valid : arc.Valid) (marginAt : margin.position = .units count)
    (within : count.natAbs ≤ 2 * halfTurnUnits) : ∃ moved, arc.moveEnds margin = .ok moved := by
  obtain ⟨lo, hi, endsAt, -⟩ := valid.exists_endsAt
  have ⟨loWithin, hiWithin⟩ := endsAt.within valid
  have limit := halfTurnUnits_le_exactLimit
  obtain ⟨loMoved, hiMoved, loMoves, hiMoves, loMovedAt, hiMovedAt⟩ :=
    endsAt.exists_sums loWithin hiWithin marginAt (by omega)
  obtain ⟨lower, loWraps, lowerAngle⟩ := Number.wrap_total loMovedAt
    (natAbs_roundedUnits_le representable_exactLimit (by omega))
  obtain ⟨upper, hiWraps, upperAngle⟩ := Number.wrap_total hiMovedAt
    (natAbs_roundedUnits_le representable_exactLimit (by omega))
  simp only [moveEnds, loMoves, hiMoves, ok_bind, loWraps, hiWraps,
    checked_of_angles lowerAngle upperAngle, canonical, Value.le_number, pure_eq_ok]
  exact ⟨_, rfl⟩

theorem Valid.expansion_total_of_nonneg (valid : arc.Valid)
    (nonneg : (Number.integer 0).le margin = true) :
    ∃ expansion, arc.expansion margin = .ok expansion := by
  obtain ⟨lo, hi, endsAt, counts⟩ := valid.exists_endsAt
  have ⟨loWithin, hiWithin⟩ := counts.within
  by_cases vanishing : lo = halfTurnUnits ∧ hi = -halfTurnUnits
  · exact ⟨.unchanged, expansion_of_isEmpty (endsAt.isEmpty_iff.mpr vanishing) nonneg⟩
  rcases Binary64.nonneg_margin_cases (2 * halfTurnUnits) nonneg with
    far | ⟨count, marginAt, from0, near⟩
  · exact ⟨.saturated, endsAt.expansion_of_ge_fullTurn loWithin hiWithin vanishing far⟩
  · obtain ⟨length, -, grows⟩ := endsAt.expansion_growing loWithin hiWithin vanishing nonneg
    obtain ⟨moved, moves⟩ := valid.moveEnds_total marginAt (by omega)
    rw [grows, moves, ok_bind, ← apply_ite Except.ok]
    exact ⟨_, rfl⟩

theorem Valid.expansion_total_of_neg (valid : arc.Valid)
    (negative : (Number.real margin).lt (.integer 0) = true) :
    ∃ expansion, arc.expansion margin = .ok expansion := by
  obtain ⟨lo, hi, endsAt, counts⟩ := valid.exists_endsAt
  have ⟨loWithin, hiWithin⟩ := counts.within
  have sign := Number.le_eq_false_of_lt negative
  by_cases whole : lo = -halfTurnUnits ∧ hi = halfTurnUnits
  · exact ⟨.unchanged, expansion_of_isFull (endsAt.isFull_iff.mpr whole) sign⟩
  rcases Binary64.neg_margin_cases negative with far | ⟨count, marginAt, below, near⟩
  · exact ⟨.collapsed, endsAt.expansion_of_le_neg_halfTurn loWithin hiWithin whole far⟩
  · obtain ⟨length, -, shrinks⟩ := endsAt.expansion_shrinking loWithin hiWithin whole sign
    obtain ⟨moved, moves⟩ := valid.moveEnds_total marginAt (by omega)
    rw [shrinks, moves, ok_bind, ← apply_ite Except.ok]
    exact ⟨_, rfl⟩

theorem Valid.isFinite_of_moved (valid : arc.Valid) (defined : margin ≠ .nan) {moved : Arc}
    (moves : arc.expansion margin = .ok (.moved moved)) : margin.isFinite = true := by
  obtain ⟨lo, hi, endsAt, counts⟩ := valid.exists_endsAt
  have ⟨loWithin, hiWithin⟩ := counts.within
  cases margin with
  | nan => exact absurd rfl defined
  | finite => rfl
  | infinite negative =>
    cases negative with
    | false =>
      by_cases vanishing : lo = halfTurnUnits ∧ hi = -halfTurnUnits
      · have unchanged := @expansion_of_isEmpty _ (.real (.infinite false))
          (endsAt.isEmpty_iff.mpr vanishing) rfl
        cases unchanged.symm.trans moves
      · cases (endsAt.expansion_of_ge_fullTurn loWithin hiWithin vanishing rfl).symm.trans moves
    | true =>
      by_cases whole : lo = -halfTurnUnits ∧ hi = halfTurnUnits
      · have unchanged := @expansion_of_isFull _ (.real (.infinite true))
          (endsAt.isFull_iff.mpr whole) rfl
        cases unchanged.symm.trans moves
      · cases (endsAt.expansion_of_le_neg_halfTurn loWithin hiWithin whole rfl).symm.trans moves

theorem Valid.expansion_total (valid : arc.Valid) (defined : margin ≠ .nan) :
    ∃ expansion, arc.expansion margin = .ok expansion := by
  cases sign : (Number.integer 0).le (.real margin) with
  | true => exact valid.expansion_total_of_nonneg sign
  | false => exact valid.expansion_total_of_neg (Number.lt_zero_of_not_nonneg defined sign)

/-- Every margin but the undefined one changes an arc into an arc. -/
theorem Valid.expanded_total (valid : arc.Valid) (defined : margin ≠ .nan) :
    ∃ changed, arc.expanded margin = .ok changed := by
  obtain ⟨expansion, found⟩ := valid.expansion_total defined
  exact ⟨_, expanded_of_expansion found⟩

/-!
## Approximate equality
-/

section ApproxEquals

variable {tolerance : Binary64}

theorem Valid.isNearlyEmpty_total (valid : arc.Valid) :
    ∃ answer, arc.isNearlyEmpty (.number tolerance) = .ok answer := by
  obtain ⟨length, lengthIs⟩ := valid.exists_length
  rw [isNearlyEmpty, lengthIs, ok_bind, Value.twice_number, ok_bind, Value.le_number]
  exact ⟨_, rfl⟩

theorem Valid.isNearlyFull_total (valid : arc.Valid) :
    ∃ answer, arc.isNearlyFull (.number tolerance) = .ok answer := by
  obtain ⟨length, lengthIs⟩ := valid.exists_length
  rw [isNearlyFull, lengthIs, ok_bind, Value.sub_number, Number.sub_real, ok_bind]
  exact ⟨_, rfl⟩

theorem nearlySameAngle_total {source target : Value} (sourceAngle : source.IsAngle)
    (targetAngle : target.IsAngle) :
    ∃ answer, nearlySameAngle source target (.number tolerance) = .ok answer := by
  obtain ⟨sourceNumber, rfl⟩ := sourceAngle.eq_number
  obtain ⟨targetNumber, rfl⟩ := targetAngle.eq_number
  obtain ⟨sourceCount, sourceAt, sourceWithin⟩ := sourceAngle
  obtain ⟨targetCount, targetAt, targetWithin⟩ := targetAngle
  have limit := halfTurnUnits_le_exactLimit
  obtain ⟨offset, offsetIs, offsetAt⟩ :=
    Number.sub_of_position targetAt sourceAt (by omega) (by omega) (by omega)
  obtain ⟨wrapped, wraps, -⟩ := Number.wrap_total offsetAt
    (natAbs_roundedUnits_le representable_exactLimit (by omega))
  rw [nearlySameAngle, Value.sub_number, offsetIs, ok_bind, wraps, ok_bind, Value.le_number]
  exact ⟨_, rfl⟩

theorem Valid.nearlySameLength_total (arcValid : arc.Valid) (otherValid : other.Valid) :
    ∃ answer, arc.nearlySameLength other (.number tolerance) = .ok answer := by
  obtain ⟨lo, hi, endsAt, counts⟩ := arcValid.exists_endsAt
  obtain ⟨otherLo, otherHi, otherAt, otherCounts⟩ := otherValid.exists_endsAt
  obtain ⟨length, lengthIs, lengthAt⟩ := endsAt.length counts.within.1 counts.within.2
  obtain ⟨otherLength, otherLengthIs, otherLengthAt⟩ :=
    otherAt.length otherCounts.within.1 otherCounts.within.2
  have bound := natAbs_lengthUnits_le counts.within.1 counts.within.2
  have otherBound := natAbs_lengthUnits_le otherCounts.within.1 otherCounts.within.2
  have limit := halfTurnUnits_le_exactLimit
  obtain ⟨difference, differs, -⟩ :=
    Number.sub_of_position lengthAt otherLengthAt (by omega) (by omega) (by omega)
  rw [nearlySameLength, lengthIs, ok_bind, otherLengthIs, ok_bind, differs, ok_bind,
    Value.twice_number, ok_bind, Value.le_number]
  exact ⟨_, rfl⟩

theorem Valid.approxEquals_total (arcValid : arc.Valid) (otherValid : other.Valid) :
    ∃ answer, arc.approxEquals other (.number tolerance) = .ok answer := by
  obtain ⟨loAnswer, loIs⟩ :=
    @nearlySameAngle_total tolerance _ _ arcValid.lo_isAngle otherValid.lo_isAngle
  obtain ⟨hiAnswer, hiIs⟩ :=
    @nearlySameAngle_total tolerance _ _ arcValid.hi_isAngle otherValid.hi_isAngle
  unfold approxEquals
  split
  · exact otherValid.isNearlyEmpty_total
  split
  · exact arcValid.isNearlyEmpty_total
  split
  · exact otherValid.isNearlyFull_total
  split
  · exact arcValid.isNearlyFull_total
  rw [loIs, hiIs]
  cases loAnswer with
  | false => exact ⟨false, rfl⟩
  | true =>
    cases hiAnswer with
    | false => exact ⟨false, rfl⟩
    | true => exact arcValid.nearlySameLength_total otherValid

end ApproxEquals

/-!
## All operations
-/

theorem Valid.directedDistance_total (arcValid : arc.Valid) (otherValid : other.Valid)
    (arcReal : arc.IsReal) (otherReal : other.IsReal) :
    ∃ distance, arc.directedDistance other = .ok distance := by
  obtain ⟨covered, coveredIs, means⟩ := otherValid.contains_decides arcValid
  cases covered with
  | true => exact ⟨_, directedDistance_of_contains coveredIs⟩
  | false =>
    have beyond : ¬ arc.points ⊆ other.points := fun within =>
      Bool.false_ne_true (means.mpr within)
    by_cases vanishing : other.points = ∅
    · exact ⟨_, directedDistance_of_isEmpty coveredIs (otherValid.isEmpty_iff_points.mpr vanishing)⟩
    · have nonempty : arc.points ≠ ∅ := fun vanishes => beyond (vanishes ▸ Set.empty_subset _)
      have proper := otherValid.proper_of_points vanishing fun whole =>
        beyond (whole ▸ points_subset_circle)
      obtain ⟨exact, farthest⟩ := arcValid.exists_farthest nonempty proper
      obtain ⟨distance, distanceIs, -⟩ := arcValid.directedDistance_of_proper otherValid arcReal
        otherReal nonempty proper coveredIs farthest
      exact ⟨distance, distanceIs⟩

/-- All operations on two arcs, with a margin and a tolerance, give a result. The complement cannot
fail in the first place. Ends are moved, and their sums wrapped, for finite margins only. -/
structure AllSucceed (arc other : Arc) (margin tolerance : Binary64) : Prop where
  contains : ∃ answer, arc.contains other = .ok answer
  interiorContains : ∃ answer, arc.interiorContains other = .ok answer
  intersects : ∃ answer, arc.intersects other = .ok answer
  interiorIntersects : ∃ answer, arc.interiorIntersects other = .ok answer
  union : ∃ cover, arc.union other = .ok cover
  intersection : ∃ cover, arc.intersection other = .ok cover
  complement : arc.complement.Valid
  length : ∃ length, arc.length = .ok length
  center : ∃ center, arc.center = .ok center
  complementCenter : ∃ center, arc.complementCenter = .ok center
  expanded : ∃ changed, arc.expanded margin = .ok changed
  isFinite_of_moved : ∀ moved, arc.expansion margin = .ok (.moved moved) → margin.isFinite = true
  directedDistance : ∃ distance, arc.directedDistance other = .ok distance
  approxEquals : ∃ answer, arc.approxEquals other (.number tolerance) = .ok answer

/-- Nothing fails on valid arcs with floating-point ends: not for any margin but the undefined one, be
it infinite, and not for any tolerance. -/
theorem Valid.all_succeed (arcValid : arc.Valid) (otherValid : other.Valid) (arcReal : arc.IsReal)
    (otherReal : other.IsReal) (defined : margin ≠ .nan) (tolerance : Binary64) :
    arc.AllSucceed other margin tolerance := by
  obtain ⟨lo, hi, endsAt, counts⟩ := arcValid.exists_endsAt
  obtain ⟨center, centerIs, -⟩ := endsAt.center counts.within.1 counts.within.2
  obtain ⟨opposite, oppositeIs, -⟩ := endsAt.complementCenter counts.within.1 counts.within.2
  obtain ⟨contained, containedIs, -⟩ := arcValid.contains_decides otherValid
  obtain ⟨inside, insideIs, -⟩ := arcValid.interiorContains_decides otherValid
  obtain ⟨meets, meetsIs, -⟩ := arcValid.intersects_decides otherValid
  obtain ⟨overlaps, overlapsIs, -⟩ := arcValid.interiorIntersects_decides otherValid
  obtain ⟨cover, coverIs, -⟩ := arcValid.union_cases otherValid
  obtain ⟨overlap, overlapIs, -⟩ := arcValid.intersection_cases otherValid
  exact {
    contains := ⟨contained, containedIs⟩
    interiorContains := ⟨inside, insideIs⟩
    intersects := ⟨meets, meetsIs⟩
    interiorIntersects := ⟨overlaps, overlapsIs⟩
    union := ⟨cover, coverIs⟩
    intersection := ⟨_, overlapIs⟩
    complement := arcValid.complement
    length := arcValid.exists_length
    center := ⟨_, centerIs⟩
    complementCenter := ⟨_, oppositeIs⟩
    expanded := arcValid.expanded_total defined
    isFinite_of_moved := fun _ => arcValid.isFinite_of_moved defined
    directedDistance := arcValid.directedDistance_total otherValid arcReal otherReal
    approxEquals := arcValid.approxEquals_total otherValid }

/-- The shortest arc across half a turn beside the full circle, with an infinite margin and an
undefined tolerance. -/
theorem Valid.all_succeed_across_half_turn :
    shortestCrossing.Valid ∧ full.Valid ∧ shortestCrossing.IsReal ∧ full.IsReal ∧
      Binary64.infinite false ≠ .nan ∧ shortestCrossing.AllSucceed full (.infinite false) .nan := by
  have valid : shortestCrossing.Valid := by decide +kernel
  have real : shortestCrossing.IsReal := ⟨_, _, rfl⟩
  have defined : Binary64.infinite false ≠ .nan := nofun
  exact ⟨valid, full_valid, real, full_isReal, defined,
    valid.all_succeed full_valid real full_isReal defined .nan⟩

end Arc

end CircularArc
